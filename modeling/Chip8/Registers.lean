import Chip8.Dictionary
import Chip8.State

/-!
# Register snapshots

A copy of every register for inspectors, and its rendering as named hexadecimal texts.  The numbers
of a snapshot may have any size and sign.
-/

namespace Chip8

/-- The contents of the registers at one moment. -/
structure RegisterSnapshot where
  /-- The registers in order. -/
  values : List Int
  /-- The index register. -/
  index : Int
  /-- The program counter. -/
  pc : Int
  /-- The stack pointer. -/
  stackPointer : Int
  /-- The delay timer. -/
  delayTimer : Int
  /-- The sound timer. -/
  soundTimer : Int
  /-- The slots of the stack in order. -/
  stack : List Int
  deriving DecidableEq, Repr

namespace RegisterSnapshot

/-- The snapshot of a state. -/
def ofState [RandomSource] (state : State) : RegisterSnapshot where
  values := state.registers.toList.map fun value => (value.toNat : Int)
  index := state.index.toNat
  pc := state.pc.toNat
  stackPointer := state.stack.pointer
  delayTimer := state.delayTimer.toNat
  soundTimer := state.soundTimer.toNat
  stack := state.stack.slots.toList.map fun address => (address.toNat : Int)

/-- A named number in hexadecimal with a zero and a letter in front. -/
def field (name : String) (width : Nat) (value : Int) : String × String :=
  (name, "0x" ++ Numeral.hex width value)

/-- Numbers under a family name followed by their position in hexadecimal. -/
def family (name : String) (width : Nat) (values : List Int) : List (String × String) :=
  values.zipIdx.map fun (value, position) => field (name ++ Numeral.hex 0 position) width value

/-- The registers with their names, in the order in which they are written down. -/
def fields (snapshot : RegisterSnapshot) : List (String × String) :=
  [field "PC" 4 snapshot.pc, field "I" 4 snapshot.index, field "SP" 4 snapshot.stackPointer,
    field "DT" 2 snapshot.delayTimer, field "ST" 2 snapshot.soundTimer] ++
    family "SP" 4 snapshot.stack ++ family "V" 2 snapshot.values

/-- The registers as texts under their names, in the order in which inspectors show them. -/
def format (snapshot : RegisterSnapshot) : List (String × String) :=
  (Dictionary.ofEntries snapshot.fields).entries

end RegisterSnapshot
end Chip8
