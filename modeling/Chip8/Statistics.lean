import Chip8.Command

/-!
# Statistics

Counters over the steps of a machine.  Statuses are listed by their first occurrence, instructions
by falling count with ties in the order of first occurrence.
-/

namespace Chip8

/-- Counts of values in the order of their first occurrence. -/
structure Tally (Value : Type) where
  /-- Each value that occurred with its count. -/
  counts : List (Value × Nat)
  deriving DecidableEq, Repr

namespace Tally

variable {Value : Type}

/-- Nothing has occurred. -/
def empty : Tally Value :=
  ⟨[]⟩

/-- Count one more occurrence in a list of counts. -/
def increment [DecidableEq Value] (value : Value) : List (Value × Nat) → List (Value × Nat)
  | [] => [(value, 1)]
  | (head, count) :: rest =>
    if head = value then (head, count + 1) :: rest else (head, count) :: increment value rest

/-- Count one more occurrence. -/
def add [DecidableEq Value] (tally : Tally Value) (value : Value) : Tally Value :=
  ⟨increment value tally.counts⟩

/-- The counts in falling order, equal ones in order of first occurrence. -/
def ranked (tally : Tally Value) : List (Value × Nat) :=
  tally.counts.mergeSort fun left right => right.2 ≤ left.2

end Tally

/-- What has been counted of the steps of a machine. -/
structure Statistics where
  /-- The instructions to count by name; all of them when absent. -/
  tracked : Option (List String)
  /-- The number of steps. -/
  steps : Nat
  /-- The statuses of the steps. -/
  statuses : Tally StepStatus
  /-- The names of the instructions. -/
  instructions : Tally String

namespace Statistics

/-- Nothing has been counted. -/
def start (tracked : Option (List String)) : Statistics where
  tracked := tracked
  steps := 0
  statuses := .empty
  instructions := .empty

/-- Forget all counts. -/
def reset (statistics : Statistics) : Statistics :=
  start statistics.tracked

/-- Whether an instruction name is counted. -/
def tracks (statistics : Statistics) (name : String) : Bool :=
  match statistics.tracked with
  | none => true
  | some names => names.contains name

/-- Count the name of an instruction, if there is one and it is to be counted. -/
def countName (statistics : Statistics) : Option String → Tally String
  | none => statistics.instructions
  | some name =>
    if statistics.tracks name then statistics.instructions.add name else statistics.instructions

/-- Count a step. -/
def count (statistics : Statistics) (result : StepResult) : Statistics :=
  { statistics with
    steps := statistics.steps + 1
    statuses := statistics.statuses.add result.status
    instructions := statistics.countName result.name }

/-- Take note of an event; only steps are counted. -/
def observe [RandomSource] (statistics : Statistics) : Event → Statistics
  | .romLoaded _ => statistics
  | .stepped result _ => statistics.count result
  | .batchEnded _ _ => statistics

/-- Take note of events in order. -/
def observeAll [RandomSource] (statistics : Statistics) (events : List Event) : Statistics :=
  events.foldl observe statistics

end Statistics
end Chip8
