import Chip8.Proofs.Lockstep

/-!
# Changes that a step does not notice

A change of the state may be made before an instruction or after it, when the instruction does not
read what is changed and the change keeps what the instruction writes.  If fetching does not notice
the change either, a step of the changed machine reports what the step of the machine reports, faults
as it does, and leads to the changed machine; and a run in which no instruction notices the change
keeps the two machines in lockstep.
-/

namespace Chip8

/-! ## Effects and instructions -/

variable [RandomSource]

/-- An effect comes to the same before a change and after it. -/
def Effect.Commutes (change : State → State) (effect : Effect) : Prop :=
  ∀ state, effect.apply (change state) = change (effect.apply state)

theorem Effect.applyAll_change {change : State → State} {effects : List Effect}
    (commute : ∀ effect ∈ effects, effect.Commutes change) (state : State) :
    applyAll effects (change state) = change (applyAll effects state) := by
  induction effects generalizing state with
  | nil => rfl
  | cons effect effects ih =>
      rw [applyAll_cons, applyAll_cons, commute effect List.mem_cons_self state]
      exact ih (fun other member => commute other (List.mem_cons_of_mem effect member)) _

namespace Instruction

/-- An instruction comes to the same before a change of a state and after it. -/
def Commutes (change : State → State) (state : State) (instruction : Instruction) : Prop :=
  instruction.execute (change state) = (instruction.execute state).map change

variable {change : State → State} {state : State} {instruction : Instruction}

/-- An instruction that has the same effects in a changed state commutes with the change if they
do. -/
theorem commutes_of_effects
    (same : instruction.effects (change state) = instruction.effects state)
    (commute : ∀ effects, instruction.effects state = .ok effects →
      ∀ effect ∈ effects, effect.Commutes change) :
    instruction.Commutes change state := by
  rw [Commutes, execute, execute, same]
  cases acts : instruction.effects state with
  | error fault => rfl
  | ok effects => exact congrArg Except.ok (Effect.applyAll_change (commute effects acts) state)

theorem Commutes.effects_error {fault : Fault} (commutes : instruction.Commutes change state)
    (refused : instruction.effects state = .error fault) :
    instruction.effects (change state) = .error fault := by
  rw [Commutes, execute, execute, refused] at commutes
  cases acts : instruction.effects (change state) with
  | ok effects =>
      rw [acts] at commutes
      cases commutes
  | error other =>
      rw [acts] at commutes
      cases commutes
      rfl

theorem Commutes.effects_ok {effects : List Effect} (commutes : instruction.Commutes change state)
    (acts : instruction.effects state = .ok effects) :
    ∃ others, instruction.effects (change state) = .ok others ∧
      Effect.applyAll others (change state) = change (Effect.applyAll effects state) := by
  rw [Commutes, execute, execute, acts] at commutes
  obtain ⟨others, other_acts, applied⟩ := bind_eq_ok.mp commutes
  exact ⟨others, other_acts, Except.ok.inj applied⟩

end Instruction

/-! ## Steps -/

/-- Fetching does not notice a change of the state. -/
structure State.Unfetched (change : State → State) : Prop where
  pc : ∀ state, (change state).pc = state.pc
  memory : ∀ state, (change state).memory = state.memory
  advance : ∀ state, (change state).advance = change state.advance

namespace Machine

variable {machine : Machine} {change : State → State}

theorem pauses_mapState (machine : Machine) (unfetched : State.Unfetched change) :
    (machine.mapState change).pauses = machine.pauses := by
  simp only [pauses, mapState, unfetched.pc]

theorem word_mapState (machine : Machine) (unfetched : State.Unfetched change) :
    (machine.mapState change).state.word = machine.state.word := by
  simp only [State.word, mapState, unfetched.pc, unfetched.memory]

theorem report_mapState (unfetched : State.Unfetched change) :
    (machine.mapState change).report = machine.report := by
  have word := word_mapState machine unfetched
  funext status mnemonic name error
  simp only [report, word]
  simp only [mapState, unfetched.pc]

/-- A change of the machine that comes with an outcome. -/
def changeNext (change : State → State) (outcome : StepResult × Machine) : StepResult × Machine :=
  (outcome.1, outcome.2.mapState change)

theorem conclude_mapState (unfetched : State.Unfetched change) (entry : Entry Operation)
    (mnemonic : String) {instruction : Instruction}
    (commutes : instruction.Commutes change machine.state.advance) :
    (machine.mapState change).conclude entry mnemonic
        (instruction.effects (machine.mapState change).state.advance) =
      (machine.conclude entry mnemonic (instruction.effects machine.state.advance)).map
        (changeNext change) := by
  have advanced : (machine.mapState change).state.advance = change machine.state.advance :=
    unfetched.advance machine.state
  rw [advanced]
  cases acts : instruction.effects machine.state.advance with
  | ok effects =>
      obtain ⟨others, other_acts, applied⟩ := commutes.effects_ok acts
      rw [other_acts]
      simp only [conclude, complete, report_mapState unfetched, advanced, applied]
      rfl
  | error fault =>
      rw [commutes.effects_error acts]
      cases fault with
      | notImplemented refused word =>
          simp only [conclude, passRefused, report_mapState unfetched, advanced]
          rfl
      | _ => rfl

/-- A step does not notice a change that the instruction at hand does not notice. -/
theorem step_mapState (unfetched : State.Unfetched change)
    (commutes : machine.pauses = false → ∀ entry mnemonic instruction,
      Decodes machine.state.word entry mnemonic instruction →
        instruction.waits (change machine.state) = instruction.waits machine.state ∧
          instruction.Commutes change machine.state.advance) :
    (machine.mapState change).step = machine.step.map (changeNext change) := by
  have same_pauses := pauses_mapState machine unfetched
  have same_word := word_mapState machine unfetched
  cases pauses : machine.pauses with
  | true =>
      rw [step_of_pauses pauses, step_of_pauses (same_pauses.trans pauses), pause, pause,
        report_mapState unfetched, mapState, unfetched.pc]
      rfl
  | false =>
      have runs := same_pauses.trans pauses
      rcases unknown_or_decodes machine.state.word with
        unknown | ⟨entry, mnemonic, instruction, decodes⟩
      · rw [step_of_unknown pauses unknown, step_of_unknown runs (same_word ▸ unknown), passInvalid,
          passInvalid, report_mapState unfetched, same_word, mapState, unfetched.advance]
        rfl
      · obtain ⟨same_waits, commutes⟩ := commutes pauses entry mnemonic instruction decodes
        rw [step_of_decodes pauses decodes, step_of_decodes runs (same_word ▸ decodes),
          conclude_mapState unfetched entry mnemonic commutes,
          show instruction.waits (machine.mapState change).state = _ from same_waits]
        cases instruction.waits machine.state with
        | true =>
            simp only [if_true, await, report_mapState unfetched]
            rfl
        | false => rfl

/-! ## Runs -/

theorem quietly_mapState (machine : Machine) (outcome : Except Fault Machine) :
    (machine.quietly outcome).reply =
        ((machine.mapState change).quietly (outcome.map (·.mapState change))).reply ∧
      ((machine.mapState change).quietly (outcome.map (·.mapState change))).machine =
        (machine.quietly outcome).machine.mapState change := by
  cases outcome <;> exact ⟨rfl, rfl⟩

theorem setKey_mapState {key : Int} {down : Bool}
    (commutes : (change machine.state).setKey key down =
      (machine.state.setKey key down).map change) :
    (machine.mapState change).setKey key down =
      (machine.setKey key down).map (·.mapState change) := by
  rw [setKey, setKey, show (machine.mapState change).state.setKey key down = _ from commutes]
  cases machine.state.setKey key down <;> rfl

/-- A request that acts alike on a state and on the changed state acts alike on the machines. -/
theorem perform_mapState {command : Command} (request : command.isRequest = true)
    (commutes : command.onState (change machine.state) =
      (command.onState machine.state).map change) :
    (machine.perform command).reply = ((machine.mapState change).perform command).reply ∧
      ((machine.mapState change).perform command).machine =
        (machine.perform command).machine.mapState change := by
  cases command with
  | step | run => cases request
  | load rom =>
      have loads : (machine.mapState change).state.load rom =
          (machine.state.load rom).map change := commutes
      simp only [perform, performLoad, load, loads]
      cases machine.state.load rom <;> exact ⟨rfl, rfl⟩
  | pressKey key | releaseKey key =>
      rw [perform, perform, setKey_mapState commutes]
      exact quietly_mapState machine _
  | tickDelay | tickSound | tick =>
      have ticks := Except.ok.inj commutes
      simp only [perform, quietly, mapState, ticks, and_self]
  | addBreakpoint | removeBreakpoint | clearBreakpoints => exact ⟨rfl, rfl⟩

/-- A machine and the changed one are in lockstep for as long as no instruction notices the
change. -/
theorem lockstep_mapState {allowed : Machine → Command → Prop} (unfetched : State.Unfetched change)
    (steps : ∀ machine : Machine, allowed machine .step → machine.pauses = false →
      ∀ entry mnemonic instruction, Decodes machine.state.word entry mnemonic instruction →
        instruction.waits (change machine.state) = instruction.waits machine.state ∧
          instruction.Commutes change machine.state.advance)
    (requests : ∀ (command : Command) state,
      command.onState (change state) = (command.onState state).map change) :
    Lockstep (fun left right => right = left.mapState change) id allowed where
  status _ := rfl
  step := by
    rintro left _ rfl allowed
    rw [step_mapState unfetched (steps left allowed)]
    cases left.step with
    | error fault => exact .fault fault
    | ok outcome => exact .ok rfl rfl
  request := by
    rintro left _ command rfl request -
    exact perform_mapState request (requests command left.state)

end Machine
end Chip8
