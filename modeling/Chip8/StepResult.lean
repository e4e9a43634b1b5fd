import Chip8.Fault

/-!
# Step results

What the machine reports of one step.
-/

namespace Chip8

/-- How a step ended. -/
inductive StepStatus where
  /-- An instruction was run. -/
  | ok
  /-- The word is no instruction; the machine went past it. -/
  | invalidOpcode
  /-- A breakpoint was reached; nothing was run. -/
  | pausedAtBreakpoint
  /-- The instruction waits for a key and will be run again. -/
  | waitingForKey
  /-- The instruction is not run by this machine, which went past it. -/
  | notImplemented
  deriving DecidableEq, Repr

namespace StepStatus

/-- Every status. -/
def all : List StepStatus :=
  [.ok, .invalidOpcode, .pausedAtBreakpoint, .waitingForKey, .notImplemented]

/-- The name of a status. -/
def name : StepStatus → String
  | .ok => "ok"
  | .invalidOpcode => "invalid_opcode"
  | .pausedAtBreakpoint => "paused_at_breakpoint"
  | .waitingForKey => "waiting_for_key"
  | .notImplemented => "not_implemented"

/-- The status with a given name. -/
def ofName (name : String) : Except Fault StepStatus :=
  match all.find? fun status => status.name == name with
  | some status => .ok status
  | none => .error (.noSuchStatus name)

/-- Whether a status stops a batch of steps. -/
def halts : StepStatus → Bool
  | .invalidOpcode => true
  | .pausedAtBreakpoint => true
  | .notImplemented => true
  | .ok => false
  | .waitingForKey => false

@[simp]
theorem ofName_name (status : StepStatus) : ofName status.name = .ok status := by
  cases status <;> rfl

end StepStatus

/-- The report of one step. -/
structure StepResult where
  /-- How the step ended. -/
  status : StepStatus
  /-- The address of the instruction. -/
  address : Int
  /-- The word at that address. -/
  word : Int
  /-- The mnemonic, or the text of the fault for a word that is no instruction. -/
  mnemonic : String
  /-- The name of the table entry. -/
  name : Option String
  /-- The text of a fault that did not stop the machine. -/
  error : Option String
  deriving DecidableEq, Repr

namespace StepResult

/-- Whether the step ran an instruction to its end. -/
def isOk (result : StepResult) : Bool :=
  result.status == .ok

end StepResult
end Chip8
