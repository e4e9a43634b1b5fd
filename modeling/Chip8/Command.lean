import Chip8.Machine
import Chip8.Threefry

/-!
# Commands

What a host can tell a machine, the reply, and the events that observers of the machine see.  A
command that is refused leaves the machine as it was, except that a batch keeps the steps made
before the fault.  The Threefry generator comes with the commands, so a host need not bring a source
of random bytes of its own.
-/

namespace Chip8

variable [RandomSource]

/-- Something that observers are told. -/
inductive Event where
  /-- A program has been loaded. -/
  | romLoaded (rom : List UInt8)
  /-- A step has been made; the state is the one after it. -/
  | stepped (result : StepResult) (state : State)
  /-- A batch has ended without a fault. -/
  | batchEnded (steps : Int) (last : Option StepResult)

/-- A request of the host. -/
inductive Command where
  /-- Load a program. -/
  | load (rom : List UInt8)
  /-- Make one step. -/
  | step
  /-- Make a batch of steps, with a progress bar if options for one are given. -/
  | run (limit : Int) (bar : Option BarOptions)
  /-- Tick the delay timer. -/
  | tickDelay
  /-- Tick the sound timer. -/
  | tickSound
  /-- Tick both timers. -/
  | tick
  /-- Put a key down. -/
  | pressKey (key : Int)
  /-- Put a key up. -/
  | releaseKey (key : Int)
  /-- Pause at an address. -/
  | addBreakpoint (address : Int)
  /-- No longer pause at an address. -/
  | removeBreakpoint (address : Int)
  /-- No longer pause anywhere. -/
  | clearBreakpoints
  deriving DecidableEq, Repr

/-- What a command gives back. -/
inductive Reply where
  /-- Nothing. -/
  | done
  /-- The report of a step. -/
  | stepped (result : StepResult)
  /-- The report of the last step of a batch, if it made any, and its bar, if it had one. -/
  | ran (last : Option StepResult) (bar : Option ProgressBar)
  deriving DecidableEq, Repr

/-- What a command brings about. -/
structure Activity where
  /-- The machine afterwards. -/
  machine : Machine
  /-- The reply, or why the command was refused. -/
  reply : Except Fault Reply
  /-- What observers see, in order. -/
  events : List Event

namespace Machine

/-- A command that changes the machine quietly. -/
def quietly (machine : Machine) : Except Fault Machine → Activity
  | .ok next => ⟨next, .ok .done, []⟩
  | .error fault => ⟨machine, .error fault, []⟩

/-- Load a program and tell observers. -/
def performLoad (machine : Machine) (rom : List UInt8) : Activity :=
  match machine.load rom with
  | .ok next => ⟨next, .ok .done, [.romLoaded rom]⟩
  | .error fault => ⟨machine, .error fault, []⟩

/-- Make a step and tell observers. -/
def performStep (machine : Machine) : Activity :=
  match machine.step with
  | .ok (result, next) => ⟨next, .ok (.stepped result), [.stepped result next.state]⟩
  | .error fault => ⟨machine, .error fault, []⟩

/-- Make a batch of steps and tell observers of each, and of the end unless a step faulted. -/
def performRun (machine : Machine) (limit : Int) (options : Option BarOptions) : Activity :=
  let batch := machine.run limit options
  let steps := batch.steps.map fun (result, state) => Event.stepped result state
  match batch.fault with
  | none =>
    ⟨batch.machine, .ok (.ran batch.last batch.bar),
      steps ++ [.batchEnded batch.count batch.last]⟩
  | some fault => ⟨batch.machine, .error fault, steps⟩

/-- Carry out a command. -/
def perform (machine : Machine) : Command → Activity
  | .load rom => machine.performLoad rom
  | .step => machine.performStep
  | .run limit bar => machine.performRun limit bar
  | .tickDelay => machine.quietly (.ok (machine.mapState State.tickDelay))
  | .tickSound => machine.quietly (.ok (machine.mapState State.tickSound))
  | .tick => machine.quietly (.ok (machine.mapState State.tick))
  | .pressKey key => machine.quietly (machine.setKey key true)
  | .releaseKey key => machine.quietly (machine.setKey key false)
  | .addBreakpoint address => machine.quietly (.ok (machine.addBreakpoint address))
  | .removeBreakpoint address => machine.quietly (.ok (machine.removeBreakpoint address))
  | .clearBreakpoints => machine.quietly (.ok machine.clearBreakpoints)

end Machine
end Chip8
