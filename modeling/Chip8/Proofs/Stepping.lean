import Chip8.Machine
import Chip8.Proofs.Effects
import Chip8.Proofs.Encoding

/-!
# Steps

What one step of a machine can come to: a pause, a word passed over because no entry agrees with it
or because it is machine code, an instruction that waits or has had its effects, or a fault of the
call stack.  All of it but the choice to pause depends on the state alone.
-/

namespace Chip8

variable [RandomSource]

theorem State.word_lt (state : State) : state.word < 65536 := by
  have high := (state.memory.read state.pc.toNat).toNat_lt
  have low := (state.memory.read (state.pc.toNat + 1)).toNat_lt
  simp only [State.word, Memory.word]
  omega

theorem State.word_emod (state : State) : (state.word : Int) % 65536 = state.word := by
  have bound := state.word_lt
  omega

theorem toNat_pc_advance (state : State) :
    (state.advance.pc.toNat : Int) = (state.pc.toNat + 2) % 65536 := by
  have two : (2 : UInt16).toNat = 2 := rfl
  simp only [State.advance, UInt16.toNat_add, two]
  omega

/-! ## Calls and returns -/

section Words

variable {state : State} {entry : Entry Operation} {mnemonic : String} {instruction : Instruction}

theorem call_iff_word (decodes : Decodes state.word entry mnemonic instruction) :
    (∃ address, instruction = .call address) ↔ (state.word : Int) / 4096 = 2 := by
  have bound := state.word_lt
  have operation : (∃ address, instruction = .call address) ↔ instruction.operation = .call := by
    cases instruction <;> simp [Instruction.operation]
  rw [operation, decodes.operation_eq_iff (by decide), Operation.covers_call_iff]
  omega

theorem ret_iff_word (decodes : Decodes state.word entry mnemonic instruction) :
    instruction = .ret ↔ (state.word : Int) = 0x00EE := by
  have bound := state.word_lt
  have operation : instruction = .ret ↔ instruction.operation = .ret := by
    cases instruction <;> simp [Instruction.operation]
  rw [operation, decodes.operation_eq_iff (by decide), Operation.covers_ret_iff]
  omega

end Words

omit [RandomSource] in
theorem exists_decodes_call {word : Nat} (class_two : word / 4096 = 2) :
    ∃ entry mnemonic address, Decodes word entry mnemonic (.call address) := by
  have covers := (Operation.covers_call_iff word).mpr (by omega)
  obtain ⟨entry, mnemonic, decodes⟩ := covers.decodes (by decide)
  exact ⟨entry, mnemonic, _, decodes⟩

omit [RandomSource] in
theorem exists_decodes_ret {word : Nat} (lowest : word = 0x00EE) :
    ∃ entry mnemonic, Decodes word entry mnemonic .ret :=
  ((Operation.covers_ret_iff word).mpr (by omega)).decodes (by decide)

/-! ## Refused instructions -/

/-- Only machine calls, calls on a full stack and returns on an empty one are refused. -/
theorem Instruction.effects_error {instruction : Instruction} {state : State} {fault : Fault}
    (refused : instruction.effects state = .error fault) :
    (∃ address word, instruction = .machineCall address word ∧
        fault = .notImplemented ("SYS 0x" ++ Numeral.hex 3 address) word) ∨
      (∃ address, instruction = .call address ∧ 16 ≤ state.stack.pointer + 1 ∧
        fault = .stackOverflow state.stack.pointer) ∨
      (instruction = .ret ∧ state.stack.pointer ≤ 0 ∧ fault = .stackUnderflow) := by
  cases instruction with
  | machineCall address word =>
      cases refused
      exact .inl ⟨address, word, rfl, rfl⟩
  | call address =>
      rw [effects_call] at refused
      split at refused
      · rename_i full
        cases refused
        exact .inr (.inl ⟨address, rfl, full, rfl⟩)
      · cases refused
  | ret =>
      rw [effects_ret] at refused
      split at refused
      · rename_i no_call
        cases refused
        exact .inr (.inr ⟨rfl, no_call, rfl⟩)
      · cases refused
  | _ => cases refused

/-! ## Waiting instructions -/

namespace Instruction

/-- Whether an instruction waits because no key is down. -/
def waits (state : State) : Instruction → Bool
  | .waitKey _ => state.pressedKeys.isEmpty
  | _ => false

theorem waits_of_error {instruction : Instruction} {state : State} {fault : Fault}
    (refused : instruction.effects state.advance = .error fault) :
    instruction.waits state = false := by
  cases instruction with
  | waitKey x => cases refused
  | _ => rfl

/-- An instruction that waits leaves everything as it was before it was fetched. -/
theorem applyAll_of_waits {instruction : Instruction} {state : State} {effects : List Effect}
    (acts : instruction.effects state.advance = .ok effects)
    (waits : instruction.waits state = true) :
    (∃ x, instruction = .waitKey x) ∧ Effect.applyAll effects state.advance = state := by
  cases instruction with
  | waitKey x =>
      cases acts
      have no_key : state.advance.pressedKeys = [] := List.isEmpty_iff.mp waits
      refine ⟨⟨x, rfl⟩, ?_⟩
      rw [waitEffects, no_key]
      simp [Effect.apply, State.advance]
  | _ => cases waits

theorem pc_advance_ne (state : State) : state.advance.pc ≠ state.pc := by
  intro unmoved
  have moved := congrArg UInt16.toNat unmoved
  have two : (2 : UInt16).toNat = 2 := rfl
  rw [State.advance, UInt16.toNat_add, two] at moved
  omega

/-- An instruction for a key that does not wait goes past its own address. -/
theorem pc_ne_of_no_wait {x : Fin 16} {state : State} {effects : List Effect}
    (acts : (waitKey x).effects state.advance = .ok effects)
    (no_wait : (waitKey x).waits state = false) :
    (Effect.applyAll effects state.advance).pc ≠ state.pc := by
  cases acts
  have same_keys : state.advance.pressedKeys = state.pressedKeys := rfl
  rw [waitEffects, same_keys]
  cases keys : state.pressedKeys with
  | nil => simp [waits, keys] at no_wait
  | cons key others => exact pc_advance_ne state

end Instruction

namespace Machine

/-! ## Equations of a step -/

/-- Go past an instruction that is not run. -/
def passRefused (machine : Machine) (entry : Entry Operation) (mnemonic : String) (fault : Fault) :
    StepResult × Machine :=
  (machine.report .notImplemented mnemonic (some entry.name) (some fault.message),
    machine.proceed machine.state.advance)

/-- Stay at an instruction that waits. -/
def await (machine : Machine) (entry : Entry Operation) (mnemonic : String) :
    StepResult × Machine :=
  (machine.report .waitingForKey mnemonic (some entry.name) none, machine)

/-- Go on after the effects of an instruction. -/
def complete (machine : Machine) (entry : Entry Operation) (mnemonic : String)
    (effects : List Effect) : StepResult × Machine :=
  (machine.report .ok mnemonic (some entry.name) none,
    machine.proceed (Effect.applyAll effects machine.state.advance))

/-- End a step by an instruction that does not wait. -/
def conclude (machine : Machine) (entry : Entry Operation) (mnemonic : String) :
    Except Fault (List Effect) → Except Fault (StepResult × Machine)
  | .ok effects => .ok (machine.complete entry mnemonic effects)
  | .error (.notImplemented refused word) =>
    .ok (machine.passRefused entry mnemonic (.notImplemented refused word))
  | .error fault => .error fault

theorem step_of_pauses {machine : Machine} (pauses : machine.pauses = true) :
    machine.step = .ok machine.pause := by
  rw [step, if_pos pauses]
  rfl

theorem step_of_unknown {machine : Machine} (runs : machine.pauses = false)
    (unknown : instructionSet.select (Opcode.decode machine.state.word) = none) :
    machine.step = .ok machine.passInvalid := by
  simp only [step, runs, Table.find_decode, unknown, ok_bind]
  rfl

/-- The machine waits exactly at the instructions that wait. -/
theorem settle_eq {machine : Machine} {entry : Entry Operation} {mnemonic : String}
    {instruction : Instruction} {effects : List Effect}
    (decodes : Decodes machine.state.word entry mnemonic instruction)
    (acts : instruction.effects machine.state.advance = .ok effects) :
    machine.settle entry mnemonic (Effect.applyAll effects machine.state.advance) =
      if instruction.waits machine.state then machine.await entry mnemonic
      else machine.complete entry mnemonic effects := by
  cases waits : instruction.waits machine.state with
  | true =>
      obtain ⟨⟨x, rfl⟩, unmoved⟩ := Instruction.applyAll_of_waits acts waits
      rw [unmoved, settle, if_pos ⟨decodes.action, rfl⟩]
      rfl
  | false =>
      rw [settle, if_neg]
      · rfl
      · rintro ⟨key, unmoved⟩
        rw [decodes.action] at key
        cases instruction with
        | waitKey x => exact Instruction.pc_ne_of_no_wait acts waits unmoved
        | _ => cases key

theorem step_of_decodes {machine : Machine} {entry : Entry Operation} {mnemonic : String}
    {instruction : Instruction} (runs : machine.pauses = false)
    (decodes : Decodes machine.state.word entry mnemonic instruction) :
    machine.step =
      if instruction.waits machine.state then .ok (machine.await entry mnemonic)
      else machine.conclude entry mnemonic (instruction.effects machine.state.advance) := by
  have executed := decodes.execute_eq machine.state.advance
  rw [Instruction.execute] at executed
  simp only [step, runs, Table.find_decode, decodes.chosen, ok_bind, runEntry,
    decodes.described, executed]
  cases acts : instruction.effects machine.state.advance with
  | ok effects =>
      have settled := settle_eq decodes acts
      cases waits : instruction.waits machine.state with
      | true | false =>
          rw [waits] at settled
          exact congrArg Except.ok settled
  | error fault =>
      simp only [Instruction.waits_of_error acts]
      cases fault <;> rfl

theorem step_of_no_wait {machine : Machine} {entry : Entry Operation} {mnemonic : String}
    {instruction : Instruction} (runs : machine.pauses = false)
    (decodes : Decodes machine.state.word entry mnemonic instruction)
    (no_wait : instruction.waits machine.state = false) :
    machine.step =
      machine.conclude entry mnemonic (instruction.effects machine.state.advance) := by
  rw [step_of_decodes runs decodes, no_wait]
  rfl

/-! ## Outcomes of a step -/

/-- What a step of a machine comes to, and why. -/
inductive StepsTo (machine : Machine) : Except Fault (StepResult × Machine) → Prop
  | paused (pauses : machine.pauses = true) : StepsTo machine (.ok machine.pause)
  | invalid (runs : machine.pauses = false)
      (unknown : instructionSet.select (Opcode.decode machine.state.word) = none) :
      StepsTo machine (.ok machine.passInvalid)
  | refused {entry : Entry Operation} {mnemonic : String} {address word : Int}
      (runs : machine.pauses = false)
      (decodes : Decodes machine.state.word entry mnemonic (.machineCall address word)) :
      StepsTo machine (.ok (machine.passRefused entry mnemonic
        (.notImplemented ("SYS 0x" ++ Numeral.hex 3 address) word)))
  | awaiting {entry : Entry Operation} {mnemonic : String} {x : Fin 16}
      (runs : machine.pauses = false)
      (decodes : Decodes machine.state.word entry mnemonic (.waitKey x))
      (no_key : machine.state.pressedKeys = []) :
      StepsTo machine (.ok (machine.await entry mnemonic))
  | completed {entry : Entry Operation} {mnemonic : String} {instruction : Instruction}
      {effects : List Effect} (runs : machine.pauses = false)
      (decodes : Decodes machine.state.word entry mnemonic instruction)
      (no_wait : instruction.waits machine.state = false)
      (acts : instruction.effects machine.state.advance = .ok effects) :
      StepsTo machine (.ok (machine.complete entry mnemonic effects))
  | overflow {entry : Entry Operation} {mnemonic : String} {address : Int}
      (runs : machine.pauses = false)
      (decodes : Decodes machine.state.word entry mnemonic (.call address))
      (full : 16 ≤ machine.state.stack.pointer + 1) :
      StepsTo machine (.error (.stackOverflow machine.state.stack.pointer))
  | underflow {entry : Entry Operation} {mnemonic : String} (runs : machine.pauses = false)
      (decodes : Decodes machine.state.word entry mnemonic .ret)
      (no_call : machine.state.stack.pointer ≤ 0) : StepsTo machine (.error .stackUnderflow)

/-- Every step comes to one of the outcomes. -/
theorem stepsTo_step (machine : Machine) : machine.StepsTo machine.step := by
  cases runs : machine.pauses with
  | true => exact step_of_pauses runs ▸ .paused runs
  | false =>
      rcases unknown_or_decodes machine.state.word with
        unknown | ⟨entry, mnemonic, instruction, decodes⟩
      · exact step_of_unknown runs unknown ▸ .invalid runs unknown
      · rw [step_of_decodes runs decodes]
        cases waits : instruction.waits machine.state with
        | true =>
            cases instruction with
            | waitKey x => exact .awaiting runs decodes (List.isEmpty_iff.mp waits)
            | _ => cases waits
        | false =>
            cases acts : instruction.effects machine.state.advance with
            | ok effects => exact .completed runs decodes waits acts
            | error fault =>
                rcases Instruction.effects_error acts with
                  ⟨address, word, rfl, rfl⟩ | ⟨address, rfl, full, rfl⟩ | ⟨rfl, no_call, rfl⟩
                · exact .refused runs decodes
                · exact .overflow runs decodes full
                · exact .underflow runs decodes no_call

theorem stepsTo_of_step {machine : Machine} {outcome : Except Fault (StepResult × Machine)}
    (step : machine.step = outcome) : machine.StepsTo outcome :=
  step ▸ machine.stepsTo_step

theorem pauses_of_no_breakpoints {machine : Machine} (none : machine.breakpoints = .empty) :
    machine.pauses = false := by
  simp [pauses, none]

/-- Only the call stack makes a step fault. -/
theorem step_error_eq {machine : Machine} {fault : Fault} (step : machine.step = .error fault) :
    fault = .stackUnderflow ∨ fault = .stackOverflow machine.state.stack.pointer := by
  cases stepsTo_of_step step with
  | overflow => exact .inr rfl
  | underflow => exact .inl rfl

/-- With a pointer in its range, a step faults exactly on a call when fifteen are open and on a
return when none is. -/
theorem step_error_iff {machine : Machine} {fault : Fault}
    (low : 0 ≤ machine.state.stack.pointer) (high : machine.state.stack.pointer ≤ 15) :
    machine.step = .error fault ↔
      machine.pauses = false ∧
        (machine.state.word / 4096 = 2 ∧ machine.state.stack.pointer = 15 ∧
            fault = .stackOverflow 15 ∨
          machine.state.word = 0x00EE ∧ machine.state.stack.pointer = 0 ∧
            fault = .stackUnderflow) := by
  constructor
  · intro step
    cases stepsTo_of_step step with
    | overflow runs decodes full =>
        have class_two := (call_iff_word decodes).mp ⟨_, rfl⟩
        have fifteen : machine.state.stack.pointer = 15 := by omega
        exact ⟨runs, .inl ⟨by omega, fifteen, by rw [fifteen]⟩⟩
    | underflow runs decodes no_call =>
        have lowest := (ret_iff_word decodes).mp rfl
        exact ⟨runs, .inr ⟨by omega, by omega, rfl⟩⟩
  · rintro ⟨runs, ⟨class_two, full, rfl⟩ | ⟨lowest, no_call, rfl⟩⟩
    · obtain ⟨entry, mnemonic, address, decodes⟩ := exists_decodes_call class_two
      have pointer : machine.state.advance.stack.pointer = 15 := full
      rw [step_of_no_wait runs decodes rfl, Instruction.effects_call, pointer, if_pos (by omega)]
      rfl
    · obtain ⟨entry, mnemonic, decodes⟩ := exists_decodes_ret lowest
      have pointer : machine.state.advance.stack.pointer = 0 := no_call
      rw [step_of_no_wait runs decodes rfl, Instruction.effects_ret, pointer, if_pos (by omega)]
      rfl

/-- A step leaves the program and the breakpoints alone. -/
theorem step_keeps {machine next : Machine} {result : StepResult}
    (step : machine.step = .ok (result, next)) :
    next.rom = machine.rom ∧ next.breakpoints = machine.breakpoints := by
  cases stepsTo_of_step step <;> exact ⟨rfl, rfl⟩

/-- A step reports the address and the word that it found. -/
theorem step_reports {machine next : Machine} {result : StepResult}
    (step : machine.step = .ok (result, next)) :
    result.address = machine.state.pc.toNat ∧ result.word = machine.state.word := by
  cases stepsTo_of_step step <;> exact ⟨rfl, rfl⟩

/-- A step pauses exactly when the machine is at a breakpoint that it has not paused at. -/
theorem status_step_eq_paused_iff {machine next : Machine} {result : StepResult}
    (step : machine.step = .ok (result, next)) :
    result.status = .pausedAtBreakpoint ↔ machine.pauses = true := by
  constructor
  · intro paused
    cases stepsTo_of_step step with
    | paused pauses => exact pauses
    | invalid | refused | awaiting | completed => cases paused
  · intro pauses
    rw [step_of_pauses pauses] at step
    cases step
    rfl

/-! ## Steps and states -/

/-- What a step shows of its outcome: the report and the state after it. -/
def observe (outcome : StepResult × Machine) : StepResult × State :=
  (outcome.1, outcome.2.state)

/-- Steps that do not pause show the same from equal states. -/
theorem observe_step_congr {left right : Machine} (same : left.state = right.state)
    (left_runs : left.pauses = false) (right_runs : right.pauses = false) :
    left.step.map observe = right.step.map observe := by
  obtain ⟨state, leftRom, leftBreakpoints, leftBreak⟩ := left
  obtain ⟨_, rightRom, rightBreakpoints, rightBreak⟩ := right
  subst same
  rcases unknown_or_decodes state.word with unknown | ⟨entry, mnemonic, instruction, decodes⟩
  · rw [step_of_unknown left_runs unknown, step_of_unknown right_runs unknown]
    rfl
  · rw [step_of_decodes left_runs decodes, step_of_decodes right_runs decodes]
    cases instruction.waits state with
    | true => rfl
    | false =>
        cases instruction.effects state.advance with
        | ok effects => rfl
        | error fault => cases fault <;> rfl

theorem step_error_congr {left right : Machine} {fault : Fault} (same : left.state = right.state)
    (left_runs : left.pauses = false) (right_runs : right.pauses = false)
    (step : left.step = .error fault) : right.step = .error fault := by
  have observed := observe_step_congr same left_runs right_runs
  rw [step] at observed
  cases right_step : right.step with
  | error other =>
      rw [right_step] at observed
      cases observed
      rfl
  | ok outcome =>
      rw [right_step] at observed
      cases observed

theorem step_ok_congr {left right next : Machine} {result : StepResult}
    (same : left.state = right.state) (left_runs : left.pauses = false)
    (right_runs : right.pauses = false) (step : left.step = .ok (result, next)) :
    ∃ other, right.step = .ok (result, other) ∧ other.state = next.state := by
  have observed := observe_step_congr same left_runs right_runs
  rw [step] at observed
  cases right_step : right.step with
  | error fault =>
      rw [right_step] at observed
      cases observed
  | ok outcome =>
      obtain ⟨otherResult, other⟩ := outcome
      rw [right_step] at observed
      obtain ⟨same_result, same_next⟩ := Prod.mk.inj (Except.ok.inj observed)
      dsimp only at same_result same_next
      exact ⟨other, by rw [same_result], same_next.symm⟩

end Machine
end Chip8
