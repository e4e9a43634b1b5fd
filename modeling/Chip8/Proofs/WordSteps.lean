import Chip8.Proofs.SingleCommand
import Chip8.Threefry

/-!
# A step runs the word at hand

A step that does not pause comes to what running the fetched word comes to: it goes on with the
state after the word, reports a word that is refused as such and goes past it, or faults as the call
stack does.  What it shows of the word is what a reader of the word alone would show.
-/

namespace Chip8

namespace Fault

/-- No entry takes the opcode. -/
def isInvalidOpcode : Fault → Bool
  | .invalidOpcode _ => true
  | .wrongEntry _ _ _ => true
  | _ => false

/-- The instruction is deliberately not run. -/
def isNotImplemented : Fault → Bool
  | .notImplemented _ _ => true
  | _ => false

/-- The call stack has no room or no call. -/
def isStackFault : Fault → Bool
  | .stackOverflow _ => true
  | .stackUnderflow => true
  | _ => false

end Fault

section Source

variable [RandomSource]

theorem State.mem_pressedKeys (state : State) (key : Fin 16) :
    key ∈ state.pressedKeys ↔ state.keypad.get key = true := by
  have cell : state.keypad.get key = state.keypad[key] := rfl
  simp [State.pressedKeys, List.mem_filter, cell]

theorem State.pressedKeys_eq_nil_iff (state : State) :
    state.pressedKeys = [] ↔ ∀ key : Fin 16, state.keypad.get key = false := by
  simp [List.eq_nil_iff_forall_not_mem, State.mem_pressedKeys]

theorem Instruction.waits_iff (instruction : Instruction) (state : State) :
    instruction.waits state = true ↔
      instruction.operation = .waitKey ∧ ∀ key : Fin 16, state.keypad.get key = false := by
  rw [← state.pressedKeys_eq_nil_iff]
  cases instruction <;> simp [Instruction.waits, Instruction.operation]

namespace Machine

variable {machine : Machine}

/-! ## A word that runs -/

theorem step_of_execute_ok {after : State} (runs : machine.pauses = false)
    (executed : execute machine.state.advance machine.state.word = .ok after) :
    ∃ entry result next, machine.step = .ok (result, next) ∧
      (result.status = .ok ∨ result.status = .waitingForKey) ∧ next.state = after ∧
      describe machine.state.word = .ok result.mnemonic ∧
      instructionSet.lookup (.decode machine.state.word) = .ok entry ∧
      result.name = some entry.name ∧ result.error = none := by
  rcases unknown_or_decodes machine.state.word with
    unknown | ⟨entry, mnemonic, instruction, decodes⟩
  · rw [execute_of_unknown unknown] at executed
    cases executed
  · rw [execute_of_decodes decodes, Instruction.execute, bind_eq_ok] at executed
    obtain ⟨effects, acts, applied⟩ := executed
    cases applied
    have step := step_of_decodes runs decodes
    have described := describe_of_decodes decodes
    have found := lookup_of_decodes decodes
    cases waits : instruction.waits machine.state with
    | true =>
        rw [waits, if_pos rfl] at step
        have unmoved := (Instruction.applyAll_of_waits acts waits).2
        exact ⟨entry, _, _, step, .inr rfl, unmoved.symm, described, found, rfl, rfl⟩
    | false =>
        rw [waits, acts] at step
        exact ⟨entry, _, _, step, .inl rfl, rfl, described, found, rfl, rfl⟩

/-! ## A word that is refused -/

theorem step_of_execute_error {fault : Fault} (runs : machine.pauses = false)
    (refused : execute machine.state.advance machine.state.word = .error fault) :
    (fault.isInvalidOpcode = true ∧
        ∃ result next, machine.step = .ok (result, next) ∧ result.status = .invalidOpcode ∧
          result.mnemonic = fault.message ∧ result.error = some fault.message ∧
          result.name = none ∧ next.state = machine.state.advance) ∨
      (fault.isNotImplemented = true ∧
        ∃ entry result next, machine.step = .ok (result, next) ∧
          result.status = .notImplemented ∧ describe machine.state.word = .ok result.mnemonic ∧
          result.error = some fault.message ∧
          instructionSet.lookup (.decode machine.state.word) = .ok entry ∧
          result.name = some entry.name ∧ next.state = machine.state.advance) ∨
      (fault.isStackFault = true ∧ machine.step = .error fault) := by
  rcases unknown_or_decodes machine.state.word with
    unknown | ⟨entry, mnemonic, instruction, decodes⟩
  · rw [execute_of_unknown unknown] at refused
    cases refused
    rw [machine.state.word_emod]
    exact .inl ⟨rfl, _, _, step_of_unknown runs unknown, rfl, rfl, rfl, rfl, rfl⟩
  · rw [execute_of_decodes decodes, Instruction.execute] at refused
    cases acts : instruction.effects machine.state.advance with
    | ok effects =>
        rw [acts] at refused
        cases refused
    | error raised =>
        rw [acts] at refused
        cases refused
        have step := step_of_no_wait runs decodes (Instruction.waits_of_error acts)
        rw [acts] at step
        rcases Instruction.effects_error acts with
          ⟨address, word, -, rfl⟩ | ⟨address, -, -, rfl⟩ | ⟨-, -, rfl⟩
        · exact .inr (.inl ⟨rfl, entry, _, _, step, rfl, describe_of_decodes decodes, rfl,
            lookup_of_decodes decodes, rfl, rfl⟩)
        · exact .inr (.inr ⟨rfl, step⟩)
        · exact .inr (.inr ⟨rfl, step⟩)

/-! ## What a step shows of the word -/

/-- A step waits exactly at a word that asks for a key while no key is down. -/
theorem status_step_eq_waiting_iff {next : Machine} {result : StepResult}
    (runs : machine.pauses = false) (step : machine.step = .ok (result, next)) :
    result.status = .waitingForKey ↔ Operation.waitKey.Covers machine.state.word ∧
      ∀ key : Fin 16, machine.state.keypad.get key = false := by
  cases stepsTo_of_step step with
  | paused pauses =>
      rw [runs] at pauses
      cases pauses
  | invalid _ unknown =>
      constructor
      · rintro ⟨⟩
      · rintro ⟨covers, -⟩
        obtain ⟨entry, chosen, -⟩ := covers.select (by decide)
        rw [unknown] at chosen
        cases chosen
  | refused _ decodes =>
      rw [← decodes.operation_eq_iff (by decide), ← Instruction.waits_iff]
      exact ⟨nofun, nofun⟩
  | awaiting _ decodes no_key =>
      rw [← decodes.operation_eq_iff (by decide), ← Instruction.waits_iff]
      exact ⟨fun _ => List.isEmpty_iff.mpr no_key, fun _ => rfl⟩
  | completed _ decodes no_wait =>
      rw [← decodes.operation_eq_iff (by decide), ← Instruction.waits_iff, no_wait]
      exact ⟨nofun, nofun⟩

/-- A step that does not pause shows what a reader of the word alone makes of it. -/
theorem describeWord_step {next : Machine} {result : StepResult} (runs : machine.pauses = false)
    (step : machine.step = .ok (result, next)) :
    result.mnemonic = (describeWord machine.state.word).1 ∧
      ((describeWord machine.state.word).2 = false ↔ result.status = .invalidOpcode) := by
  cases stepsTo_of_step step with
  | paused pauses =>
      rw [runs] at pauses
      cases pauses
  | invalid _ unknown =>
      rw [describeWord_of_unknown unknown, machine.state.word_emod]
      exact ⟨rfl, fun _ => rfl, fun _ => rfl⟩
  | refused _ decodes | awaiting _ decodes | completed _ decodes =>
      rw [describeWord_of_decodes decodes]
      exact ⟨rfl, nofun, nofun⟩

/-- A step that does not pause agrees with running and describing the fetched word.  Where the word
runs, the step goes on with the state after it under its mnemonic and the name of its entry.  Where
the word is no instruction or is not run, the step says so and goes past it.  Where the call stack
refuses the word, the step faults and leaves the machine as it was.  The step waits exactly at a
word that asks for a key while no key is down, and shows the mnemonic of a reader of the word
alone. -/
theorem step_agrees_with_execute {machine : Machine} (runs : machine.pauses = false) :
    let fetched := machine.state.fetch.1
    let word : Int := machine.state.fetch.2
    (∀ after, execute fetched word = .ok after →
        ∃ entry result next, machine.step = .ok (result, next) ∧
          (result.status = .ok ∨ result.status = .waitingForKey) ∧ next.state = after ∧
          describe word = .ok result.mnemonic ∧
          instructionSet.lookup (.decode word) = .ok entry ∧ result.name = some entry.name ∧
          result.error = none) ∧
      (∀ fault, execute fetched word = .error fault →
        (fault.isInvalidOpcode = true ∧
            ∃ result next, machine.step = .ok (result, next) ∧ result.status = .invalidOpcode ∧
              result.mnemonic = fault.message ∧ result.error = some fault.message ∧
              result.name = none ∧ next.state = fetched) ∨
          (fault.isNotImplemented = true ∧
            ∃ entry result next, machine.step = .ok (result, next) ∧
              result.status = .notImplemented ∧ describe word = .ok result.mnemonic ∧
              result.error = some fault.message ∧
              instructionSet.lookup (.decode word) = .ok entry ∧
              result.name = some entry.name ∧ next.state = fetched) ∨
          (fault.isStackFault = true ∧ machine.step = .error fault ∧
            (machine.perform .step).machine = machine)) ∧
      ∀ result next, machine.step = .ok (result, next) →
        (result.status = .waitingForKey ↔ Operation.waitKey.Covers word ∧
            ∀ key : Fin 16, machine.state.keypad.get key = false) ∧
          result.mnemonic = (describeWord word).1 ∧
          ((describeWord word).2 = false ↔ result.status = .invalidOpcode) := by
  intro fetched word
  refine ⟨fun after executed => step_of_execute_ok runs executed, ?_, ?_⟩
  · intro fault refused
    rcases step_of_execute_error runs refused with invalid | not_run | ⟨stack, step⟩
    · exact .inl invalid
    · exact .inr (.inl not_run)
    · exact .inr (.inr ⟨stack, step, by rw [perform_step_error step]⟩)
  · intro result next step
    exact ⟨status_step_eq_waiting_iff runs step, describeWord_step runs step⟩

end Machine

end Source

/-- An instruction in the last two cells waits with the program counter where it was. -/
theorem Machine.step_agrees_with_execute_at_last_cells :
    let start := create 0 ⟨true, true⟩
    let memory := Memory.blank.writeAll 0xFFE [0xF1, 0x0A]
    let machine : Machine := { start with state := { start.state with pc := 0xFFFE, memory } }
    machine.pauses = false ∧ machine.state.fetch.1.pc = 0 ∧
      execute machine.state.fetch.1 machine.state.fetch.2 = .ok machine.state ∧
      ∃ result next, machine.step = .ok (result, next) ∧ result.status = .waitingForKey ∧
        next.state = machine.state := by
  intro start memory machine
  have runs : machine.pauses = false := rfl
  have word : machine.state.fetch.2 = 0xF10A := by
    simp [machine, memory, State.fetch, State.word, Memory.word, Memory.writeAll,
      Memory.read_write]
  have covers : Operation.waitKey.Covers machine.state.fetch.2 := by
    rw [word]
    decide
  have executed : execute machine.state.fetch.1 machine.state.fetch.2 = .ok machine.state := by
    have acts : (Instruction.waitKey 1).effects machine.state.advance = .ok [.hold] := rfl
    have waits : (Instruction.waitKey 1).waits machine.state = true := by decide +kernel
    rw [covers.execute_eq (by decide), word]
    exact congrArg Except.ok (Instruction.applyAll_of_waits acts waits).2
  obtain ⟨ran, -, shown⟩ := step_agrees_with_execute runs
  obtain ⟨entry, result, next, step, -, same, -⟩ := ran _ executed
  have waits := (shown result next step).1.mpr ⟨covers, by decide +kernel⟩
  exact ⟨runs, by decide +kernel, executed, result, next, step, waits, same⟩

end Chip8
