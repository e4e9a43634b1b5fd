import Chip8.Command
import Chip8.Proofs.Stepping

/-!
# Single commands

A command that is no batch is either a step or a request that acts on the state at once: a load, a
tick, a key event or an edit of the breakpoints.  A refused command leaves the machine as it was.
-/

namespace Chip8

variable [RandomSource]

/-- A load that is granted clears the state and puts the program into its area. -/
theorem State.load_eq_ok {state next : State} {rom : List UInt8}
    (granted : state.load rom = .ok next) :
    rom.length ≤ Memory.programCapacity ∧
      next = { state.reset with memory := state.memory.writeAll Memory.programStart rom } := by
  unfold State.load at granted
  split at granted
  · cases granted
  · rename_i fits
    cases granted
    exact ⟨Nat.le_of_not_lt fits, rfl⟩

/-- A key event that is granted changes the keypad and nothing else. -/
theorem State.setKey_eq_ok {state next : State} {key : Int} {down : Bool}
    (granted : state.setKey key down = .ok next) :
    ∃ inside : key.toNat < 16,
      next = { state with keypad := state.keypad.set key.toNat down inside } := by
  unfold State.setKey at granted
  split at granted
  · rename_i inside
    cases granted
    exact ⟨by omega, rfl⟩
  · cases granted

namespace Command

/-- Whether a command makes more than one step. -/
def isBatch : Command → Bool
  | .run _ _ => true
  | _ => false

/-- Whether a command runs no instruction. -/
def isRequest : Command → Bool
  | .step => false
  | .run _ _ => false
  | _ => true

/-- Whether a command only concerns breakpoints. -/
def editsBreakpoints : Command → Bool
  | .addBreakpoint _ => true
  | .removeBreakpoint _ => true
  | .clearBreakpoints => true
  | _ => false

/-- Whether a command loads a program. -/
def isLoad : Command → Bool
  | .load _ => true
  | _ => false

/-- What a request does to the state. -/
def onState : Command → State → Except Fault State
  | .load rom, state => state.load rom
  | .tickDelay, state => .ok state.tickDelay
  | .tickSound, state => .ok state.tickSound
  | .tick, state => .ok state.tick
  | .pressKey key, state => state.setKey key true
  | .releaseKey key, state => state.setKey key false
  | _, state => .ok state

omit [RandomSource] in
theorem eq_run_of_isBatch {command : Command} (batch : command.isBatch = true) :
    ∃ limit bar, command = .run limit bar := by
  cases command with
  | run limit bar => exact ⟨limit, bar, rfl⟩
  | _ => cases batch

omit [RandomSource] in
theorem step_or_request {command : Command} (single : command.isBatch = false) :
    command = .step ∨ command.isRequest = true := by
  cases command with
  | step => exact .inl rfl
  | run limit bar => cases single
  | _ => exact .inr rfl

/-- Only loads change memory without an instruction. -/
theorem memory_of_onState {command : Command} {state next : State} (other : command.isLoad = false)
    (granted : command.onState state = .ok next) : next.memory = state.memory := by
  cases command with
  | load => cases other
  | pressKey | releaseKey =>
      obtain ⟨-, rfl⟩ := State.setKey_eq_ok granted
      rfl
  | _ =>
      cases granted
      rfl

end Command

namespace Machine

theorem perform_step_ok {machine next : Machine} {result : StepResult}
    (step : machine.step = .ok (result, next)) :
    machine.perform .step = ⟨next, .ok (.stepped result), [.stepped result next.state]⟩ := by
  simp only [perform, performStep, step]

theorem perform_step_error {machine : Machine} {fault : Fault}
    (step : machine.step = .error fault) :
    machine.perform .step = ⟨machine, .error fault, []⟩ := by
  simp only [perform, performStep, step]

/-- A request that is granted changes the state as it should. -/
theorem perform_request_ok {machine : Machine} {command : Command} {state : State}
    (request : command.isRequest = true) (granted : command.onState machine.state = .ok state) :
    (machine.perform command).reply = .ok .done ∧
      (machine.perform command).machine.state = state := by
  cases command with
  | step | run => cases request
  | load rom =>
      rw [Command.onState] at granted
      simp only [perform, performLoad, load, granted, ok_bind]
      exact ⟨rfl, rfl⟩
  | pressKey key | releaseKey key =>
      rw [Command.onState] at granted
      simp only [perform, setKey, granted, ok_bind]
      exact ⟨rfl, rfl⟩
  | _ =>
      cases granted
      exact ⟨rfl, rfl⟩

theorem perform_request_error {machine : Machine} {command : Command} {fault : Fault}
    (request : command.isRequest = true) (refused : command.onState machine.state = .error fault) :
    machine.perform command = ⟨machine, .error fault, []⟩ := by
  cases command with
  | step | run => cases request
  | load rom =>
      rw [Command.onState] at refused
      simp only [perform, performLoad, load, refused, error_bind]
  | pressKey key | releaseKey key =>
      rw [Command.onState] at refused
      simp only [perform, setKey, refused, error_bind, quietly]
  | _ => cases refused

/-- Only loads change the program, and only edits of the breakpoints change them. -/
theorem perform_keeps {machine : Machine} {command : Command} (single : command.isBatch = false) :
    (command.isLoad = false → (machine.perform command).machine.rom = machine.rom) ∧
      (command.editsBreakpoints = false →
        (machine.perform command).machine.breakpoints = machine.breakpoints) := by
  rcases Command.step_or_request single with rfl | request
  · cases outcome : machine.step with
    | error fault =>
        rw [perform_step_error outcome]
        exact ⟨fun _ => rfl, fun _ => rfl⟩
    | ok pair =>
        obtain ⟨result, next⟩ := pair
        have kept := step_keeps outcome
        rw [perform_step_ok outcome]
        exact ⟨fun _ => kept.1, fun _ => kept.2⟩
  · cases outcome : command.onState machine.state with
    | error fault =>
        rw [perform_request_error request outcome]
        exact ⟨fun _ => rfl, fun _ => rfl⟩
    | ok state =>
        cases command with
        | step | run => cases request
        | addBreakpoint | removeBreakpoint | clearBreakpoints => exact ⟨fun _ => rfl, nofun⟩
        | load rom =>
            rw [Command.onState] at outcome
            simp only [perform, performLoad, load, outcome, ok_bind]
            exact ⟨nofun, fun _ => rfl⟩
        | pressKey key | releaseKey key =>
            rw [Command.onState] at outcome
            simp only [perform, setKey, outcome, ok_bind]
            exact ⟨fun _ => rfl, fun _ => rfl⟩
        | _ => exact ⟨fun _ => rfl, fun _ => rfl⟩

theorem rom_perform {machine : Machine} {command : Command} (single : command.isBatch = false)
    (other : command.isLoad = false) : (machine.perform command).machine.rom = machine.rom :=
  (perform_keeps single).1 other

theorem breakpoints_perform {machine : Machine} {command : Command}
    (single : command.isBatch = false) (other : command.editsBreakpoints = false) :
    (machine.perform command).machine.breakpoints = machine.breakpoints :=
  (perform_keeps single).2 other

/-- A granted request does the same to breakpoints and a last pause that are the same. -/
theorem pauses_perform_request {left right : Machine} {command : Command}
    {leftState rightState : State} (request : command.isRequest = true)
    (left_granted : command.onState left.state = .ok leftState)
    (right_granted : command.onState right.state = .ok rightState)
    (breakpoints : left.breakpoints = right.breakpoints)
    (lastBreak : left.lastBreak = right.lastBreak) :
    (left.perform command).machine.breakpoints = (right.perform command).machine.breakpoints ∧
      (left.perform command).machine.lastBreak = (right.perform command).machine.lastBreak := by
  cases command with
  | step | run => cases request
  | load rom =>
      rw [Command.onState] at left_granted right_granted
      simp only [perform, performLoad, load, left_granted, right_granted, ok_bind]
      exact ⟨breakpoints, rfl⟩
  | pressKey key | releaseKey key =>
      rw [Command.onState] at left_granted right_granted
      simp only [perform, setKey, left_granted, right_granted, ok_bind]
      exact ⟨breakpoints, lastBreak⟩
  | addBreakpoint address => exact ⟨congrArg (·.add address) breakpoints, lastBreak⟩
  | removeBreakpoint address => exact ⟨congrArg (·.remove address) breakpoints, lastBreak⟩
  | clearBreakpoints => exact ⟨rfl, rfl⟩
  | tickDelay | tickSound | tick => exact ⟨breakpoints, lastBreak⟩

end Machine
end Chip8
