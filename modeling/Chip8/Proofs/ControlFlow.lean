import Chip8.Proofs.WordSteps
import Chip8.Threefry

/-!
# Where a step goes

The program counter after a step is a function of the state before it.  Fetching a word goes past it;
jumps, calls and returns then go where they say, a skip goes past one more word when its condition
holds, and an instruction that waits for a key goes back to itself.  Every other word, one that is no
instruction or is not run among them, leaves the program counter where fetching put it.
-/

namespace Chip8

section Source

variable [RandomSource]

/-- The word at hand is a skip whose condition holds. -/
def State.Skips (state : State) : Prop :=
  let x := state.register (Operand.x.registerIn state.word)
  let y := state.register (Operand.y.registerIn state.word)
  let down := state.keypad[x % 16]
  (Operation.skip .byte true).Covers state.word ∧ (x : Int) = Operand.nn.valueIn state.word ∨
    (Operation.skip .byte false).Covers state.word ∧ (x : Int) ≠ Operand.nn.valueIn state.word ∨
    (Operation.skip .register true).Covers state.word ∧ x = y ∨
    (Operation.skip .register false).Covers state.word ∧ x ≠ y ∨
    (Operation.skip .key true).Covers state.word ∧ down = true ∨
    (Operation.skip .key false).Covers state.word ∧ down = false

instance (state : State) : Decidable state.Skips := by
  unfold State.Skips
  infer_instance

/-- The address that a step goes to. -/
def State.successor (state : State) : Int :=
  if Operation.jump.Covers state.word ∨ Operation.call.Covers state.word then
    Operand.nnn.valueIn state.word
  else if Operation.jumpOffset.Covers state.word then
    Operand.nnn.valueIn state.word + state.registers[0]!.toNat
  else if Operation.ret.Covers state.word then
    state.stack.top.toNat
  else if Operation.waitKey.Covers state.word ∧ state.pressedKeys = [] then
    state.pc.toNat
  else if state.Skips then
    ((state.pc.toNat : Int) + 4) % 65536
  else
    ((state.pc.toNat : Int) + 2) % 65536

/-! ## Words of one operation -/

omit [RandomSource] in
/-- Reading the operands of a word back gives the operation. -/
theorem Operation.operation_instructionIn (operation : Operation) (word : Int) :
    (operation.instructionIn word).operation = operation :=
  operation_of_read (operation.read_decode word)

/-- No other operation that is run covers the word of an operation. -/
def Operation.Owns (operation : Operation) (word : Int) : Prop :=
  ∀ other, other ≠ .machineCall → (other.Covers word ↔ operation = other)

omit [RandomSource] in
theorem Decodes.owns {word : Int} {entry : Entry Operation} {mnemonic : String}
    {instruction : Instruction} (decodes : Decodes word entry mnemonic instruction) :
    instruction.operation.Owns word :=
  fun _ runs => (decodes.operation_eq_iff runs).symm

omit [RandomSource] in
theorem Operation.Covers.owns {operation : Operation} {word : Int} (covers : operation.Covers word)
    (runs : operation ≠ .machineCall) : operation.Owns word := by
  obtain ⟨entry, mnemonic, decodes⟩ := covers.decodes runs
  exact operation.operation_instructionIn word ▸ decodes.owns

section Operations

variable {state : State}

theorem successor_of_unknown (unknown : instructionSet.select (.decode state.word) = none) :
    state.successor = ((state.pc.toNat : Int) + 2) % 65536 := by
  have uncovered (operation : Operation) (runs : operation ≠ .machineCall) :
      ¬operation.Covers state.word := by
    intro covers
    obtain ⟨entry, chosen, -⟩ := covers.select runs
    rw [unknown] at chosen
    cases chosen
  simp [State.successor, State.Skips, uncovered]

theorem skips_iff_of_owns {test : Test} {wanted : Bool}
    (owns : (Operation.skip test wanted).Owns state.word) :
    state.Skips ↔ (test.conditionIn state.word).holds state = wanted := by
  cases test <;> cases wanted <;>
    simp [State.Skips, owns _, Test.conditionIn, Condition.holds]

theorem successor_of_owns_skip {test : Test} {wanted : Bool}
    (owns : (Operation.skip test wanted).Owns state.word) :
    state.successor =
      if state.Skips then ((state.pc.toNat : Int) + 4) % 65536
      else ((state.pc.toNat : Int) + 2) % 65536 := by
  simp [State.successor, owns _]

theorem toNat_pc_advance_advance (state : State) :
    (state.advance.advance.pc.toNat : Int) = ((state.pc.toNat : Int) + 4) % 65536 := by
  rw [toNat_pc_advance, toNat_pc_advance]
  omega

theorem toNat_pc_jump {address : Int} (low : 0 ≤ address) (high : address < 65536) :
    ((Effect.apply state (.jump address)).pc.toNat : Int) = address := by
  rw [Effect.apply, toNat_ofInt_uint16]
  omega

omit [RandomSource] in
theorem nnn_bounds (word : Int) : 0 ≤ Operand.nnn.valueIn word ∧ Operand.nnn.valueIn word < 4096 := by
  rw [Operand.valueIn]
  omega

/-- Running an instruction that does not wait goes to the successor. -/
theorem toNat_pc_applyAll {operation : Operation} {effects : List Effect}
    (owns : operation.Owns state.word)
    (acts : (operation.instructionIn state.word).effects state.advance = .ok effects)
    (no_wait : (operation.instructionIn state.word).waits state = false) :
    ((Effect.applyAll effects state.advance).pc.toNat : Int) = state.successor := by
  have address := nnn_bounds state.word
  cases operation with
  | jump =>
      have target : state.successor = Operand.nnn.valueIn state.word := by
        simp [State.successor, owns _]
      cases acts
      rw [target]
      exact toNat_pc_jump (by omega) (by omega)
  | call =>
      have target : state.successor = Operand.nnn.valueIn state.word := by
        simp [State.successor, owns _]
      rw [Operation.instructionIn, Instruction.effects_call] at acts
      split at acts <;> cases acts
      rw [target]
      exact toNat_pc_jump (by omega) (by omega)
  | jumpOffset =>
      have target : state.successor =
          state.advance.register 0 + Operand.nnn.valueIn state.word := by
        simp [State.successor, owns _, State.register, State.advance, Int.add_comm]
      have small : state.advance.register 0 < 256 := state.advance.registers[0].toNat_lt
      cases acts
      rw [target]
      exact toNat_pc_jump (by omega) (by omega)
  | ret =>
      have target : state.successor = state.advance.stack.top.toNat := by
        simp [State.successor, owns _, State.advance]
      have small := state.advance.stack.top.toNat_lt
      rw [Operation.instructionIn, Instruction.effects_ret] at acts
      split at acts <;> cases acts
      rw [target]
      exact toNat_pc_jump (by omega) (by omega)
  | skip test wanted =>
      cases acts
      have same : (test.conditionIn state.word).holds state.advance =
          (test.conditionIn state.word).holds state := by
        cases test <;> rfl
      simp only [successor_of_owns_skip owns, skips_iff_of_owns owns, same]
      split
      · exact toNat_pc_advance_advance state
      · exact toNat_pc_advance state
  | waitKey =>
      have some_key : state.pressedKeys ≠ [] := by
        intro no_key
        simp [Operation.instructionIn, Instruction.waits, no_key] at no_wait
      have same : state.advance.pressedKeys = state.pressedKeys := rfl
      have goes_on : state.successor = ((state.pc.toNat : Int) + 2) % 65536 := by
        simp [State.successor, State.Skips, owns _, some_key]
      cases acts
      rw [goes_on, ← toNat_pc_advance, Instruction.waitEffects, same]
      cases keys : state.pressedKeys with
      | nil => exact (some_key keys).elim
      | cons key others => rfl
  | _ =>
      have kept : Component.pc.Kept state.advance (Effect.applyAll effects state.advance) := by
        refine Instruction.kept_of_not_mem_targets acts ?_
        simp [Operation.instructionIn, Instruction.targets, Instruction.transferTargets]
      rw [show (Effect.applyAll effects state.advance).pc = state.advance.pc from kept,
        toNat_pc_advance]
      simp [State.successor, State.Skips, owns _]

end Operations

namespace Machine

/-! ## Steps -/

/-- A step that does not pause goes to the successor of its state. -/
theorem toNat_pc_step {machine next : Machine} {result : StepResult}
    (runs : machine.pauses = false) (step : machine.step = .ok (result, next)) :
    (next.state.pc.toNat : Int) = machine.state.successor := by
  cases stepsTo_of_step step with
  | paused pauses =>
      rw [runs] at pauses
      cases pauses
  | invalid _ unknown =>
      rw [successor_of_unknown unknown]
      exact toNat_pc_advance machine.state
  | refused _ decodes =>
      have owns : Operation.machineCall.Owns machine.state.word := decodes.owns
      have goes_on : machine.state.successor = ((machine.state.pc.toNat : Int) + 2) % 65536 := by
        simp [State.successor, State.Skips, owns _]
      rw [goes_on]
      exact toNat_pc_advance machine.state
  | awaiting _ decodes no_key =>
      have owns : Operation.waitKey.Owns machine.state.word := decodes.owns
      simp [State.successor, owns _, no_key]
  | completed _ decodes no_wait acts =>
      rw [decodes.eq_instructionIn] at acts no_wait
      exact toNat_pc_applyAll decodes.owns acts no_wait

/-- A skip takes a step, whichever way it goes. -/
theorem exists_step_of_skip {machine : Machine} {test : Test} {wanted : Bool}
    (runs : machine.pauses = false)
    (covers : (Operation.skip test wanted).Covers machine.state.word) :
    ∃ result next, machine.step = .ok (result, next) := by
  obtain ⟨entry, mnemonic, decodes⟩ := covers.decodes (by simp)
  exact ⟨_, _, step_of_no_wait runs decodes rfl⟩

/-- A step that does not pause or fault goes to the successor of its state.  Of two skips that make
the same test on the same operands in the same state and want opposite outcomes, exactly one goes past
the next word. -/
theorem steps_go_to_the_successor {machine : Machine} (runs : machine.pauses = false) :
    (∀ result next, machine.step = .ok (result, next) →
      (next.state.pc.toNat : Int) = machine.state.successor) ∧
    ∀ memory test,
      let other : Machine := { machine with state := { machine.state with memory } }
      let moves (distance : Int) (next : Machine) : Prop :=
        (next.state.pc.toNat : Int) = (machine.state.pc.toNat + distance) % 65536
      (Operation.skip test true).Covers machine.state.word →
      (Operation.skip test false).Covers other.state.word →
      test.conditionIn machine.state.word = test.conditionIn other.state.word →
        ∃ result next otherResult otherNext,
          machine.step = .ok (result, next) ∧ other.step = .ok (otherResult, otherNext) ∧
            (moves 4 next ∧ moves 2 otherNext ∨ moves 2 next ∧ moves 4 otherNext) := by
  refine ⟨fun result next => toNat_pc_step runs, ?_⟩
  intro memory test other moves covers other_covers same
  have other_runs : other.pauses = false := runs
  obtain ⟨result, next, step⟩ := exists_step_of_skip runs covers
  obtain ⟨otherResult, otherNext, other_step⟩ := exists_step_of_skip other_runs other_covers
  have goes := toNat_pc_step runs step
  have other_goes := toNat_pc_step other_runs other_step
  have owns := covers.owns (by simp)
  have other_owns := other_covers.owns (by simp)
  have blind : (test.conditionIn machine.state.word).holds other.state =
      (test.conditionIn machine.state.word).holds machine.state := by
    cases test <;> rfl
  simp only [successor_of_owns_skip owns, skips_iff_of_owns owns] at goes
  simp only [successor_of_owns_skip other_owns, skips_iff_of_owns other_owns, ← same, blind]
    at other_goes
  refine ⟨result, next, otherResult, otherNext, step, other_step, ?_⟩
  cases holds : (test.conditionIn machine.state.word).holds machine.state with
  | true =>
      rw [holds, if_pos rfl] at goes
      rw [holds, if_neg (by decide)] at other_goes
      exact .inl ⟨goes, other_goes⟩
  | false =>
      rw [holds, if_neg (by decide)] at goes
      rw [holds, if_pos rfl] at other_goes
      exact .inr ⟨goes, other_goes⟩

end Machine

end Source

/-- From the last address a skip goes past two words to an address near the start, and its opposite
past one. -/
theorem Machine.steps_go_to_the_successor_across_the_end :
    let start := create 0 ⟨true, true⟩
    let memory := Memory.blank.writeAll 0xFFF [0x31, 0x00]
    let opposite := Memory.blank.writeAll 0xFFF [0x41, 0x00]
    let machine : Machine := { start with state := { start.state with pc := 0xFFFF, memory } }
    let other : Machine := { machine with state := { machine.state with memory := opposite } }
    machine.pauses = false ∧ machine.state.word = 0x3100 ∧ other.state.word = 0x4100 ∧
      ∃ result next otherResult otherNext, machine.step = .ok (result, next) ∧
        other.step = .ok (otherResult, otherNext) ∧ (next.state.pc.toNat : Int) = 3 ∧
          (otherNext.state.pc.toNat : Int) = 1 := by
  intro start memory opposite machine other
  have runs : machine.pauses = false := rfl
  have word : machine.state.word = 0x3100 := by decide +kernel
  have other_word : other.state.word = 0x4100 := by decide +kernel
  have target : machine.state.successor = 3 := by decide +kernel
  have covers : (Operation.skip .byte true).Covers machine.state.word := by
    rw [word]
    decide
  have other_covers : (Operation.skip .byte false).Covers other.state.word := by
    rw [other_word]
    decide
  have same : Test.byte.conditionIn machine.state.word = Test.byte.conditionIn other.state.word := by
    rw [word, other_word]
    decide
  obtain ⟨goes, opposed⟩ := steps_go_to_the_successor runs
  obtain ⟨result, next, otherResult, otherNext, step, other_step, moved⟩ :=
    opposed opposite .byte covers other_covers same
  have three := (goes result next step).trans target
  refine ⟨runs, word, other_word, result, next, otherResult, otherNext, step, other_step, three, ?_⟩
  have start_pc : (machine.state.pc.toNat : Int) = 0xFFFF := rfl
  simp only [start_pc, three] at moved
  omega

end Chip8
