import Chip8.Breakpoints
import Chip8.Disassembly
import Chip8.ProgressBar
import Chip8.Registers
import Chip8.StepResult

/-!
# The machine

A state together with what its host handles: the loaded program and breakpoints.  A step reports
what it did.  The machine pauses once at each arrival at a breakpoint; the address of the last
pause is remembered until the instruction there has been passed.
-/

namespace Chip8

variable [RandomSource]

/-- A machine in the hands of a host. -/
structure Machine where
  /-- The state that instructions work on. -/
  state : State
  /-- The loaded program. -/
  rom : List UInt8
  /-- Addresses to pause at. -/
  breakpoints : Breakpoints
  /-- The address of the last pause, while its instruction has not been passed. -/
  lastBreak : Option UInt16

namespace Machine

/-- A machine with the font in memory and no program. -/
def create (seed : Int) (dialect : Dialect) : Machine where
  state := .initial seed dialect
  rom := []
  breakpoints := .empty
  lastBreak := none

/-- The loaded program, to be read line by line. -/
def disassembly (machine : Machine) : Disassembly :=
  ⟨machine.rom, Memory.programStart⟩

/-- Reset the machine and put a program into memory. -/
def load (machine : Machine) (rom : List UInt8) : Except Fault Machine := do
  let state ← machine.state.load rom
  return { machine with state, rom, lastBreak := none }

/-- Whether the next step pauses. -/
def pauses (machine : Machine) : Bool :=
  machine.breakpoints.contains machine.state.pc.toNat &&
    machine.lastBreak != some machine.state.pc

/-- The report of a step at the current address. -/
def report (machine : Machine) (status : StepStatus) (mnemonic : String)
    (name error : Option String) : StepResult where
  status := status
  address := machine.state.pc.toNat
  word := machine.state.word
  mnemonic := mnemonic
  name := name
  error := error

/-- The machine at a state past the last breakpoint. -/
def proceed (machine : Machine) (state : State) : Machine :=
  { machine with state, lastBreak := none }

/-- Pause at the current address. -/
def pause (machine : Machine) : StepResult × Machine :=
  (machine.report .pausedAtBreakpoint "" none none,
    { machine with lastBreak := some machine.state.pc })

/-- Go past a word that is no instruction. -/
def passInvalid (machine : Machine) : StepResult × Machine :=
  let text := (Fault.invalidOpcode (some (machine.state.word : Int))).message
  (machine.report .invalidOpcode text none (some text), machine.proceed machine.state.advance)

/-- Settle on the state after an instruction.  An instruction that waits for a key leaves the
program counter where it was, and then the last pause is still remembered. -/
def settle (machine : Machine) (entry : Entry Operation) (mnemonic : String) (state : State) :
    StepResult × Machine :=
  if entry.action = .waitKey ∧ state.pc = machine.state.pc then
    (machine.report .waitingForKey mnemonic (some entry.name) none, { machine with state })
  else
    (machine.report .ok mnemonic (some entry.name) none, machine.proceed state)

/-- Run the instruction of an entry. -/
def runEntry (machine : Machine) (entry : Entry Operation) (opcode : Opcode) :
    Except Fault (StepResult × Machine) := do
  let mnemonic ← entry.describe opcode
  match entry.execute opcode machine.state.advance with
  | .ok state => return machine.settle entry mnemonic state
  | .error (.notImplemented refused word) =>
    let text := (Fault.notImplemented refused word).message
    return (machine.report .notImplemented mnemonic (some entry.name) (some text),
      machine.proceed machine.state.advance)
  | .error fault => throw fault

/-- One step: pause at a breakpoint or run one instruction. -/
def step (machine : Machine) : Except Fault (StepResult × Machine) := do
  if machine.pauses then
    return machine.pause
  else
    let opcode := Opcode.decode machine.state.word
    match ← instructionSet.find opcode with
    | none => return machine.passInvalid
    | some entry => machine.runEntry entry opcode

/-- The outcome of a batch of steps. -/
structure Batch where
  /-- The machine after the steps. -/
  machine : Machine
  /-- The report of each step with the state after it, in order. -/
  steps : List (StepResult × State)
  /-- The fault that ended the batch, if one did. -/
  fault : Option Fault
  /-- The progress bar after the steps, if there is one. -/
  bar : Option ProgressBar
  /-- The number that the batch has counted to; a step that faults is counted when it begins. -/
  count : Nat
  /-- The report that the batch has kept, that of its latest step. -/
  last : Option StepResult

/-- Step at most `remaining` times, until a step halts or faults.  The loop has counted to `done`
and keeps the report `last`. -/
def runFrom (machine : Machine) (bar : Option ProgressBar) (done : Nat)
    (last : Option StepResult) : Nat → Batch
  | 0 => ⟨machine, [], none, bar, done, last⟩
  | remaining + 1 =>
    let count := done + 1
    match machine.step with
    | .error fault => ⟨machine, [], some fault, bar, count, last⟩
    | .ok (result, next) =>
      let bar := bar.map (·.update count)
      if result.status.halts then
        ⟨next, [(result, next.state)], none, bar, count, some result⟩
      else
        let rest := runFrom next bar count (some result) remaining
        { rest with steps := (result, next.state) :: rest.steps }

/-- Step at most `limit` times, showing a bar if options for one are given and there is anything to
do.  The bar is taken away at the end, also when a step faults. -/
def run (machine : Machine) (limit : Int) (options : Option BarOptions) : Batch :=
  let bar := if 0 < limit then options.map (ProgressBar.start limit) else none
  let batch := machine.runFrom bar 0 none limit.toNat
  { batch with bar := batch.bar.map ProgressBar.close }

/-- The machine with another state, its pauses being handled as before. -/
def mapState (machine : Machine) (change : State → State) : Machine :=
  { machine with state := change machine.state }

/-- Put a key up or down. -/
def setKey (machine : Machine) (key : Int) (down : Bool) : Except Fault Machine := do
  let state ← machine.state.setKey key down
  return { machine with state }

/-- Pause at an address. -/
def addBreakpoint (machine : Machine) (address : Int) : Machine :=
  { machine with breakpoints := machine.breakpoints.add address }

/-- No longer pause at an address. -/
def removeBreakpoint (machine : Machine) (address : Int) : Machine :=
  { machine with breakpoints := machine.breakpoints.remove address }

/-- No longer pause anywhere, and forget the last pause. -/
def clearBreakpoints (machine : Machine) : Machine :=
  { machine with breakpoints := .empty, lastBreak := none }

/-- The registers of the machine. -/
def registers (machine : Machine) : RegisterSnapshot :=
  .ofState machine.state

end Machine
end Chip8
