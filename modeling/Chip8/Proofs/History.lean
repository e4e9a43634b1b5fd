import Chip8.Proofs.Batches

/-!
# Histories

The history of a machine lists what its host asked of it, turn by turn, with the replies.  A batch
is unrolled into its steps, so every turn is a single command.  An invariant that single commands
keep therefore holds after every list of commands, batches included.
-/

namespace Chip8

/-- A single command with the reply to it. -/
structure Turn where
  /-- The command. -/
  command : Command
  /-- The reply, or why the command was refused. -/
  reply : Except Fault Reply

namespace Turn

/-- The report of a turn that was a step. -/
def report? : Turn → Option StepResult
  | ⟨.step, .ok (.stepped result)⟩ => some result
  | _ => none

/-- The fault of a turn that was refused. -/
def fault? (turn : Turn) : Option Fault :=
  match turn.reply with
  | .error fault => some fault
  | .ok _ => none

/-- Whether a turn is a step that paused. -/
def isPause (turn : Turn) : Bool :=
  turn.report?.any fun result => result.status == .pausedAtBreakpoint

end Turn

namespace Machine

variable [RandomSource]

/-- The turns of a batch: one for each step, the last of them refused if the batch faulted. -/
def Batch.turns (batch : Batch) : List Turn :=
  batch.steps.map (fun (result, _) => ⟨.step, .ok (.stepped result)⟩) ++
    batch.fault.toList.map fun fault => ⟨.step, .error fault⟩

/-- The turns of a command. -/
def turns (machine : Machine) : Command → List Turn
  | .run limit bar => (machine.run limit bar).turns
  | command => [⟨command, (machine.perform command).reply⟩]

/-- The machine after commands carried out in order. -/
def after (machine : Machine) : List Command → Machine
  | [] => machine
  | command :: commands => (machine.perform command).machine.after commands

/-- The turns of commands carried out in order. -/
def history (machine : Machine) : List Command → List Turn
  | [] => []
  | command :: commands =>
    machine.turns command ++ (machine.perform command).machine.history commands

@[simp]
theorem after_nil (machine : Machine) : machine.after [] = machine := rfl

@[simp]
theorem after_cons (machine : Machine) (command : Command) (commands : List Command) :
    machine.after (command :: commands) = (machine.perform command).machine.after commands := rfl

@[simp]
theorem history_nil (machine : Machine) : machine.history [] = [] := rfl

@[simp]
theorem history_cons (machine : Machine) (command : Command) (commands : List Command) :
    machine.history (command :: commands) =
      machine.turns command ++ (machine.perform command).machine.history commands := rfl

theorem after_append (machine : Machine) (front back : List Command) :
    machine.after (front ++ back) = (machine.after front).after back := by
  induction front generalizing machine with
  | nil => rfl
  | cons command front ih => exact ih (machine.perform command).machine

theorem history_append (machine : Machine) (front back : List Command) :
    machine.history (front ++ back) =
      machine.history front ++ (machine.after front).history back := by
  induction front generalizing machine with
  | nil => rfl
  | cons command front ih =>
      simp only [List.cons_append, history_cons, after_cons, List.append_assoc]
      rw [ih]

theorem turns_of_single (machine : Machine) {command : Command}
    (single : command.isBatch = false) :
    machine.turns command = [⟨command, (machine.perform command).reply⟩] := by
  cases command with
  | run limit bar => simp [Command.isBatch] at single
  | _ => rfl

/-- Without batches there is one turn for each command. -/
theorem map_command_history (machine : Machine) (commands : List Command)
    (single : ∀ command ∈ commands, command.isBatch = false) :
    (machine.history commands).map Turn.command = commands := by
  induction commands generalizing machine with
  | nil => rfl
  | cons command commands ih =>
      rw [history_cons, machine.turns_of_single (single command List.mem_cons_self)]
      have rest := ih (machine.perform command).machine fun other member =>
        single other (List.mem_cons_of_mem command member)
      simp [rest]

/-! ## Batches as turns -/

section Batches

variable {limit : Int} {options : Option BarOptions}

/-- A walk is as many steps as it has. -/
theorem Walk.eq_steps {machine last : Machine} {steps : List (StepResult × State)}
    (walk : machine.Walk steps last) :
    machine.after (List.replicate steps.length .step) = last ∧
      machine.history (List.replicate steps.length .step) =
        steps.map fun (result, _) => ⟨.step, .ok (.stepped result)⟩ := by
  induction walk with
  | refl machine => exact ⟨rfl, rfl⟩
  | head step rest ih =>
      obtain ⟨after, history⟩ := ih
      rw [List.length_cons, List.replicate_succ, after_cons, history_cons, turns_of_single _ rfl,
        perform_step_ok step]
      exact ⟨after, congrArg _ history⟩

/-- A batch is some number of steps, whatever stopped it and whether it shows a bar. -/
theorem run_eq_steps (machine : Machine) (limit : Int) (options : Option BarOptions) :
    ∃ count,
      (machine.perform (.run limit options)).machine =
          machine.after (List.replicate count .step) ∧
        machine.turns (.run limit options) = machine.history (List.replicate count .step) := by
  have concludes := machine.concludes_run limit options
  obtain ⟨steps_after, steps_history⟩ := concludes.walk.eq_steps
  rw [machine_perform_run, turns, Batch.turns, ← steps_history]
  cases outcome : (machine.run limit options).fault with
  | none => exact ⟨_, steps_after.symm, by simp⟩
  | some fault =>
      -- The step that faulted is one more turn, which leaves the machine as it was.
      have faults := (concludes.cut fault outcome).1
      refine ⟨(machine.run limit options).steps.length + 1, ?_, ?_⟩
      · rw [List.replicate_succ', after_append, steps_after, after_cons, perform_step_error faults]
        rfl
      · rw [List.replicate_succ', history_append, steps_after, history_cons,
          turns_of_single _ rfl, perform_step_error faults]
        rfl

theorem Batch.filterMap_report?_turns (batch : Batch) :
    batch.turns.filterMap Turn.report? = batch.steps.map Prod.fst := by
  have reported : (batch.steps.map fun (result, _) =>
      (⟨.step, .ok (.stepped result)⟩ : Turn)).filterMap Turn.report? =
        batch.steps.map Prod.fst := by
    rw [List.filterMap_map, ← List.filterMap_eq_map]
    rfl
  rw [turns, List.filterMap_append, reported]
  cases batch.fault <;> simp [Turn.report?]

theorem Batch.findSome?_fault?_turns (batch : Batch) :
    batch.turns.findSome? Turn.fault? = batch.fault := by
  have granted : (batch.steps.map fun (result, _) =>
      (⟨.step, .ok (.stepped result)⟩ : Turn)).findSome? Turn.fault? = none := by
    rw [List.findSome?_map]
    exact List.findSome?_eq_none_iff.mpr fun _ _ => rfl
  rw [turns, List.findSome?_append, granted]
  cases batch.fault <;> rfl

/-- The reply to a batch says no more than its turns. -/
theorem reply_run_congr {left right : Machine}
    (same : left.turns (.run limit options) = right.turns (.run limit options)) :
    (left.perform (.run limit options)).reply = (right.perform (.run limit options)).reply := by
  have reports : (left.run limit options).steps.map Prod.fst =
      (right.run limit options).steps.map Prod.fst := by
    rw [← Batch.filterMap_report?_turns, ← Batch.filterMap_report?_turns]
    exact congrArg _ same
  have faults : (left.run limit options).fault = (right.run limit options).fault := by
    rw [← Batch.findSome?_fault?_turns, ← Batch.findSome?_fault?_turns]
    exact congrArg _ same
  have lengths : (left.run limit options).steps.length =
      (right.run limit options).steps.length := by
    simpa using congrArg List.length reports
  have last : (left.run limit options).last = (right.run limit options).last := by
    rw [last_run, last_run, ← List.getLast?_map, ← List.getLast?_map, reports]
  cases left_fault : (left.run limit options).fault with
  | none =>
      rw [left_fault] at faults
      rw [perform_run_of_no_fault left_fault, perform_run_of_no_fault faults.symm]
      dsimp only
      rw [last, bar_run, bar_run, lengths]
  | some fault =>
      rw [left_fault] at faults
      rw [perform_run_of_fault left_fault, perform_run_of_fault faults.symm]

end Batches

/-- Every list of commands comes to the same as one without batches. -/
theorem exists_singles (machine : Machine) (commands : List Command) :
    ∃ singles : List Command,
      (∀ command ∈ singles, command.isBatch = false) ∧
        machine.after commands = machine.after singles ∧
        machine.history commands = machine.history singles := by
  induction commands generalizing machine with
  | nil => exact ⟨[], by simp, rfl, rfl⟩
  | cons command commands ih =>
      obtain ⟨rest, rest_single, rest_after, rest_history⟩ := ih (machine.perform command).machine
      cases batch : command.isBatch with
      | false =>
          refine ⟨command :: rest, ?_, ?_, ?_⟩
          · simpa [batch] using rest_single
          · rw [after_cons, rest_after, after_cons]
          · rw [history_cons, rest_history, history_cons]
      | true =>
          obtain ⟨limit, bar, rfl⟩ := Command.eq_run_of_isBatch batch
          obtain ⟨count, steps_after, steps_history⟩ := machine.run_eq_steps limit bar
          refine ⟨List.replicate count .step ++ rest, ?_, ?_, ?_⟩
          · intro single member
            rcases List.mem_append.mp member with member | member
            · rw [List.eq_of_mem_replicate member]
              rfl
            · exact rest_single single member
          · rw [after_cons, rest_after, after_append, steps_after]
          · rw [history_cons, rest_history, history_append, steps_after, steps_history]

/-- The single commands that commands come to when batches are unrolled into their steps. -/
def singles (machine : Machine) (commands : List Command) : List Command :=
  (machine.history commands).map Turn.command

theorem singles_spec (machine : Machine) (commands : List Command) :
    (∀ command ∈ machine.singles commands, command.isBatch = false) ∧
      machine.after (machine.singles commands) = machine.after commands := by
  obtain ⟨singles, single, after_eq, history_eq⟩ := machine.exists_singles commands
  have same : machine.singles commands = singles := by
    rw [Machine.singles, history_eq, machine.map_command_history singles single]
  rw [same]
  exact ⟨single, after_eq.symm⟩

theorem singles_append (machine : Machine) (front back : List Command) :
    machine.singles (front ++ back) =
      machine.singles front ++ (machine.after front).singles back := by
  rw [singles, history_append, List.map_append]
  rfl

/-- Unrolling adds nothing but steps. -/
theorem step_or_mem_of_mem_singles {machine : Machine} {commands : List Command}
    {command : Command} (member : command ∈ machine.singles commands) :
    command = .step ∨ command ∈ commands := by
  induction commands generalizing machine with
  | nil => cases member
  | cons first commands ih =>
      rw [singles, history_cons, List.map_append, List.mem_append] at member
      rcases member with member | member
      · cases first with
        | run limit bar =>
            left
            simp only [turns, Batch.turns, List.map_append, List.map_map, List.mem_append,
              List.mem_map] at member
            rcases member with ⟨_, -, rfl⟩ | ⟨_, -, rfl⟩ <;> rfl
        | _ => exact .inr (List.mem_cons.mpr (.inl (List.mem_singleton.mp member)))
      · rcases ih member with step | later
        · exact .inl step
        · exact .inr (List.mem_cons_of_mem first later)

/-- What no single command of a run changes, the run does not change. -/
theorem after_keeps {Value : Type} (view : Machine → Value) {machine : Machine}
    {commands : List Command}
    (keeps : ∀ done command, done ++ [command] <+: machine.singles commands →
      view ((machine.after done).perform command).machine = view (machine.after done)) :
    view (machine.after commands) = view machine := by
  rw [← (machine.singles_spec commands).2]
  generalize machine.singles commands = singles at keeps
  induction singles generalizing machine with
  | nil => rfl
  | cons command singles ih =>
      have first := keeps [] command (List.cons_prefix_cons.mpr ⟨rfl, List.nil_prefix⟩)
      -- Prefixes of the rest become prefixes of the whole by the first command before them.
      have rest : view ((machine.perform command).machine.after singles) =
          view (machine.perform command).machine :=
        ih fun done other early =>
          keeps (command :: done) other (List.cons_prefix_cons.mpr ⟨rfl, early⟩)
      exact rest.trans first

section Invariant

variable (Invariant : Machine → List Turn → Prop)
  (keeps : ∀ machine past command, command.isBatch = false → Invariant machine past →
    Invariant (machine.perform command).machine
      (past ++ [⟨command, (machine.perform command).reply⟩]))

include keeps

theorem history_invariant_from {machine : Machine} {past : List Turn}
    (holds : Invariant machine past) (commands : List Command) :
    Invariant (machine.after commands) (past ++ machine.history commands) := by
  obtain ⟨singles, single, after_eq, history_eq⟩ := machine.exists_singles commands
  rw [after_eq, history_eq]
  clear after_eq history_eq
  induction singles generalizing machine past with
  | nil => simpa using holds
  | cons command singles ih =>
      have command_single := single command List.mem_cons_self
      have kept := keeps machine past command command_single holds
      have rest := ih kept fun other member => single other (List.mem_cons_of_mem command member)
      rw [history_cons, machine.turns_of_single command_single, ← List.append_assoc]
      exact rest

/-- What single commands keep holds after every list of commands, together with its history. -/
theorem history_invariant {machine : Machine} (start : Invariant machine [])
    (commands : List Command) :
    Invariant (machine.after commands) (machine.history commands) := by
  simpa using history_invariant_from Invariant keeps start commands

end Invariant

end Machine
end Chip8
