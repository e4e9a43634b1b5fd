import Chip8.Proofs.Arithmetic
import Chip8.Proofs.DeadState
import Chip8.Proofs.Mnemonics
import Chip8.Proofs.Pausing
import Chip8.Proofs.StepFaults
import Chip8.Proofs.Unbounded
import Chip8.Threefry

/-!
# Values in range

Every value that an instruction stores is in the range of its place, so it is kept as it is.  Told
the same, the machine over unbounded integers therefore goes through the numbers of the states that
the machine goes through, and all of them stay in range.
-/

namespace Chip8

/-- A number that a byte can hold. -/
def IsByte (value : Int) : Prop :=
  0 ≤ value ∧ value < 256

/-- A number that a word of sixteen bits can hold. -/
def IsWord (value : Int) : Prop :=
  0 ≤ value ∧ value < 65536

theorem isByte_toNat (byte : UInt8) : IsByte byte.toNat := by
  have bound := byte.toNat_lt
  constructor <;> omega

theorem isWord_toNat (word : UInt16) : IsWord word.toNat := by
  have bound := word.toNat_lt
  constructor <;> omega

theorem IsByte.toNat_ofInt {value : Int} (byte : IsByte value) :
    ((UInt8.ofInt value).toNat : Int) = value := by
  rw [toNat_ofInt_uint8, Int.emod_eq_of_lt byte.1 byte.2]

theorem IsWord.toNat_ofInt {value : Int} (word : IsWord value) :
    ((UInt16.ofInt value).toNat : Int) = value := by
  rw [toNat_ofInt_uint16, Int.emod_eq_of_lt word.1 word.2]

section Source

variable [RandomSource]

/-- Every number of a state is in the range of its place. -/
structure UnboundedState.InRange (state : UnboundedState) : Prop where
  memory (address : Fin 4096) : IsByte (state.memory.get address)
  registers (x : Fin 16) : IsByte (state.registers.get x)
  index : IsWord state.index
  pc : IsWord state.pc
  slots (slot : Fin 16) : IsWord (state.slots.get slot)
  pointer : 0 ≤ state.pointer ∧ state.pointer ≤ 15
  delayTimer : IsByte state.delayTimer
  soundTimer : IsByte state.soundTimer

/-! ## Numbers in range are the numbers of a state -/

theorem inRange_unbounded {state : State} (pointer : state.stack.InRange) :
    state.unbounded.InRange where
  memory address := by simpa [State.unbounded, get_map] using isByte_toNat _
  registers x := by simpa [State.unbounded, get_map] using isByte_toNat _
  index := isWord_toNat state.index
  pc := isWord_toNat state.pc
  slots slot := by simpa [State.unbounded, get_map] using isWord_toNat _
  pointer := pointer
  delayTimer := isByte_toNat state.delayTimer
  soundTimer := isByte_toNat state.soundTimer

omit [RandomSource] in
/-- Numbers that are kept one by one are kept as a vector. -/
theorem map_map_of_kept {Value : Type} {size : Nat} {values : Vector Int size}
    {store : Int → Value} {number : Value → Int}
    (kept : ∀ place : Fin size, number (store (values.get place)) = values.get place) :
    (values.map store).map number = values := by
  apply Vector.ext
  intro place inside
  rw [Vector.getElem_map, Vector.getElem_map]
  exact kept ⟨place, inside⟩

theorem UnboundedState.InRange.exists_state {numbers : UnboundedState} (inRange : numbers.InRange) :
    ∃ state : State, state.unbounded = numbers ∧ state.stack.InRange := by
  refine ⟨{
    memory := ⟨numbers.memory.map UInt8.ofInt⟩
    registers := numbers.registers.map UInt8.ofInt
    index := UInt16.ofInt numbers.index
    pc := UInt16.ofInt numbers.pc
    stack := ⟨numbers.slots.map UInt16.ofInt, numbers.pointer⟩
    delayTimer := UInt8.ofInt numbers.delayTimer
    soundTimer := UInt8.ofInt numbers.soundTimer
    keypad := numbers.keypad
    display := numbers.display
    randomKey := numbers.randomKey
    dialect := numbers.dialect }, ?_, inRange.pointer⟩
  have memory : (numbers.memory.map UInt8.ofInt).map (fun byte => (byte.toNat : Int)) =
      numbers.memory := map_map_of_kept fun address => (inRange.memory address).toNat_ofInt
  have registers : (numbers.registers.map UInt8.ofInt).map (fun byte => (byte.toNat : Int)) =
      numbers.registers := map_map_of_kept fun x => (inRange.registers x).toNat_ofInt
  have slots : (numbers.slots.map UInt16.ofInt).map (fun word => (word.toNat : Int)) =
      numbers.slots := map_map_of_kept fun slot => (inRange.slots slot).toNat_ofInt
  simp only [State.unbounded, memory, registers, slots, inRange.index.toNat_ofInt,
    inRange.pc.toNat_ofInt, inRange.delayTimer.toNat_ofInt, inRange.soundTimer.toNat_ofInt]

/-! ## What instructions store -/

/-- What an effect stores is in the range of its place, and the index is advanced by no more than
the number of registers. -/
def Effect.Fits : Effect → Prop
  | .setRegister _ value => IsByte value
  | .setIndex address => IsWord address
  | .advanceIndex distance => 1 ≤ distance ∧ distance ≤ 16
  | .jump address => IsWord address
  | .store address value => address < 4096 ∧ IsByte value
  | .setDelay value => IsByte value
  | .setSound value => IsByte value
  | .push address => IsWord address
  | _ => True

/-- A value that fits is kept as it is. -/
theorem Effect.unbounded_apply {effect : Effect} (fits : effect.Fits) (state : State) :
    (effect.apply state).unbounded = state.unbounded.apply effect := by
  cases effect with
  | setRegister register value =>
      have kept : ((UInt8.ofInt value).toNat : Int) = value := IsByte.toNat_ofInt fits
      simp [apply, UnboundedState.apply, UnboundedState.put, State.unbounded, State.setRegister,
        Vector.map_set, kept]
  | store address value =>
      have kept : ((UInt8.ofInt value).toNat : Int) = value := IsByte.toNat_ofInt fits.2
      have named := val_location address
      simp [apply, UnboundedState.apply, UnboundedState.put, State.unbounded, Memory.write,
        Vector.map_set, kept, named]
  | push address =>
      have kept : ((UInt16.ofInt address).toNat : Int) = address := IsWord.toNat_ofInt fits
      simp [apply, UnboundedState.apply, UnboundedState.put, State.unbounded, CallStack.place,
        Vector.map_set, kept]
  | setIndex address | jump address =>
      have kept : ((UInt16.ofInt address).toNat : Int) = address := IsWord.toNat_ofInt fits
      simp [apply, UnboundedState.apply, State.unbounded, kept]
  | setDelay value | setSound value =>
      have kept : ((UInt8.ofInt value).toNat : Int) = value := IsByte.toNat_ofInt fits
      simp [apply, UnboundedState.apply, State.unbounded, kept]
  | advanceIndex distance =>
      have moved : ((state.index + UInt16.ofInt distance).toNat : Int) =
          (state.index.toNat + distance) % 65536 := by
        have kept := toNat_ofInt_uint16 distance
        rw [UInt16.toNat_add]
        omega
      simp only [apply, UnboundedState.apply, State.unbounded, moved]
  | skip =>
      have moved : ((state.pc + 2).toNat : Int) = (state.pc.toNat + 2) % 65536 :=
        toNat_pc_advance state
      simp only [apply, UnboundedState.apply, State.unbounded, moved]
  | hold =>
      have moved : ((state.pc - 2).toNat : Int) = (state.pc.toNat - 2) % 65536 := by
        rw [UInt16.toNat_sub, show (2 : UInt16).toNat = 2 from rfl]
        omega
      simp only [apply, UnboundedState.apply, State.unbounded, moved]
  | _ => rfl

theorem Effect.unbounded_applyAll {effects : List Effect}
    (fits : ∀ effect ∈ effects, effect.Fits) (state : State) :
    (applyAll effects state).unbounded = state.unbounded.applyAll effects := by
  induction effects generalizing state with
  | nil => rfl
  | cons effect effects ih =>
      rw [applyAll_cons, ih fun other member => fits other (List.mem_cons_of_mem effect member),
        unbounded_apply (fits effect List.mem_cons_self)]
      rfl

theorem isByte_register (state : State) (x : Fin 16) : IsByte (state.register x) :=
  isByte_toNat state.registers[x]

omit [RandomSource] in
theorem isByte_flag (condition : Prop) [Decidable condition] : IsByte (Alu.flag condition) := by
  rw [Alu.flag]
  split <;> constructor <;> decide

section Fits

variable {state : State} {x y : Fin 16} {effect : Effect}

theorem fits_of_mem_combineEffects {operation : Alu}
    (member : effect ∈ Instruction.combineEffects state operation x y) : effect.Fits := by
  obtain ⟨result, flag, outcome, byte, bit, -⟩ :=
    Alu.exists_yields (state.registers[x]).toNat_lt (state.registers[y]).toNat_lt operation
      state.dialect
  have applied : operation.apply state.dialect.strictBorrow
      (Instruction.leftOperand state operation x y) (state.register y) =
        ((result : Int), flag.map (Nat.cast : Nat → Int)) := outcome
  rw [Instruction.combineEffects, applied] at member
  rcases List.mem_append.mp member with member | member
  · obtain ⟨value, set, rfl⟩ := List.mem_map.mp member
    obtain ⟨number, is_flag, rfl⟩ := Option.map_eq_some_iff.mp (Option.mem_toList.mp set)
    have le := bit number is_flag
    simp only [Effect.Fits, IsByte]
    omega
  · rw [List.mem_singleton.mp member]
    simp only [Effect.Fits, IsByte]
    omega

theorem fits_of_mem_afterTransfer (member : effect ∈ Instruction.afterTransfer state x) :
    effect.Fits := by
  unfold Instruction.afterTransfer at member
  split at member
  · cases member
  · rw [List.mem_singleton.mp member]
    simp only [Effect.Fits]
    omega

theorem fits_store {offset value : Nat} (byte : value < 256) :
    (Effect.store (Instruction.cell state offset) value).Fits := by
  simp only [Effect.Fits, IsByte, Instruction.cell]
  omega

theorem fits_of_mem_waitEffects (member : effect ∈ Instruction.waitEffects state x) :
    effect.Fits := by
  unfold Instruction.waitEffects at member
  split at member
  · rw [List.mem_singleton.mp member]
    exact trivial
  · rw [List.mem_singleton.mp member]
    simp only [Effect.Fits, IsByte]
    omega

/-- What an instruction stores fits, if its operands come from a word. -/
theorem fits_of_effects {operation : Operation} {word : Int} {effects : List Effect}
    (acts : (operation.instructionIn word).effects state = .ok effects) :
    ∀ effect ∈ effects, effect.Fits := by
  have address := Operand.nnn.valueIn_bounds word
  have immediate := Operand.nn.valueIn_bounds word
  have register := isByte_register state
  have index := isWord_toNat state.index
  simp only [IsByte, IsWord, Operand.bound] at address immediate register index
  intro effect member
  cases operation with
  | machineCall => cases acts
  | ret =>
      rw [Operation.instructionIn, Instruction.effects_ret] at acts
      split at acts <;> cases acts
      rcases List.mem_pair.mp member with rfl | rfl
      · exact trivial
      · exact isWord_toNat state.stack.top
  | call =>
      rw [Operation.instructionIn, Instruction.effects_call] at acts
      split at acts <;> cases acts
      rcases List.mem_pair.mp member with rfl | rfl
      · exact isWord_toNat state.pc
      · simp only [Effect.Fits, IsWord]
        omega
  | skip test wanted =>
      cases acts
      split at member
      · rw [List.mem_singleton.mp member]
        exact trivial
      · cases member
  | combine alu =>
      cases acts
      exact fits_of_mem_combineEffects member
  | random =>
      cases acts
      rcases List.mem_pair.mp member with rfl | rfl
      · obtain ⟨mask, is_mask⟩ := Int.eq_ofNat_of_zero_le immediate.1
        have drawn : state.randomKey.draw.toNat &&& mask < 2 ^ 8 :=
          Nat.and_lt_two_pow _ (by omega)
        simp only [Effect.Fits, IsByte, is_mask, Bits.and_natCast]
        omega
      · exact trivial
  | draw =>
      cases acts
      rcases List.mem_pair.mp member with rfl | rfl
      · exact trivial
      · exact isByte_flag _
  | waitKey =>
      cases acts
      exact fits_of_mem_waitEffects member
  | decimal =>
      cases acts
      have bound := register (Operand.x.registerIn word)
      simp only [Instruction.decimalEffects, List.mem_cons, List.not_mem_nil, or_false] at member
      rcases member with rfl | rfl | rfl <;> refine fits_store ?_ <;> omega
  | storeRegisters =>
      cases acts
      rcases List.mem_append.mp member with member | member
      · obtain ⟨k, -, rfl⟩ := List.mem_map.mp member
        exact fits_store (state.registers[k]).toNat_lt
      · exact fits_of_mem_afterTransfer member
  | loadRegisters =>
      cases acts
      rcases List.mem_append.mp member with member | member
      · obtain ⟨k, -, rfl⟩ := List.mem_map.mp member
        exact isByte_toNat _
      · exact fits_of_mem_afterTransfer member
  | readDelay =>
      cases acts
      rw [List.mem_singleton.mp member]
      exact isByte_toNat state.delayTimer
  | writeDelay | writeSound =>
      cases acts
      rw [List.mem_singleton.mp member]
      exact isByte_register state (Operand.x.registerIn word)
  | clearScreen =>
      cases acts
      rw [List.mem_singleton.mp member]
      exact trivial
  | jumpOffset =>
      cases acts
      have base := register 0
      rw [List.mem_singleton.mp member]
      simp only [Effect.Fits, IsWord]
      omega
  | glyph =>
      cases acts
      have digit := register (Operand.x.registerIn word)
      rw [List.mem_singleton.mp member]
      simp only [Effect.Fits, IsWord, Memory.glyphHeight]
      omega
  | jump | load | add | loadIndex | addIndex =>
      cases acts
      rw [List.mem_singleton.mp member]
      simp only [Effect.Fits, IsWord, IsByte]
      omega

end Fits

/-! ## The same run twice -/

theorem unbounded_execute (state : State) (word : Int) :
    state.unbounded.execute word = (execute state word).map State.unbounded := by
  rcases unknown_or_decodes word with unknown | ⟨entry, mnemonic, instruction, decodes⟩
  · rw [execute_of_unknown unknown]
    simp only [UnboundedState.execute, lookup_of_unknown unknown, error_bind]
    rfl
  · rw [execute_of_decodes decodes, Instruction.execute]
    simp only [UnboundedState.execute, lookup_of_decodes decodes, ok_bind, decodes.readable,
      effects_unbounded]
    cases acts : instruction.effects state with
    | error fault => rfl
    | ok effects =>
        have fits := fits_of_effects (decodes.eq_instructionIn ▸ acts)
        exact congrArg Except.ok (Effect.unbounded_applyAll fits state).symm

theorem unbounded_advance (state : State) : state.advance.unbounded = state.unbounded.advance :=
  Effect.unbounded_apply (show Effect.skip.Fits from trivial) state

omit [RandomSource] in
/-- Only the call stack makes a step stay where it is. -/
theorem Fault.isStackFault_eq_false {fault : Fault}
    (passed : fault.isInvalidOpcode = true ∨ fault.isNotImplemented = true) :
    fault.isStackFault = false := by
  cases fault with
  | stackOverflow | stackUnderflow => rcases passed with passed | passed <;> cases passed
  | _ => rfl

theorem unbounded_stores (bytes : List UInt8) (start : Nat) (state : State) :
    { state with memory := state.memory.writeAll start bytes }.unbounded =
      state.unbounded.applyAll (Effect.stores start (bytes.map fun byte => byte.toNat)) := by
  have fits : ∀ effect ∈ Effect.stores start (bytes.map fun byte => (byte.toNat : Int)),
      effect.Fits := by
    induction bytes generalizing start with
    | nil => exact nofun
    | cons byte bytes ih =>
        intro effect member
        rcases List.mem_cons.mp member with rfl | later
        · exact ⟨Nat.mod_lt _ (by decide), isByte_toNat byte⟩
        · exact ih (start + 1) effect later
  rw [← Effect.unbounded_applyAll fits, Effect.applyAll_stores, List.map_map]
  simp only [Function.comp_def, ofInt_toNat_uint8, List.map_id']

theorem unbounded_reset (state : State) :
    state.reset.unbounded =
      { state.unbounded with
        registers := Vector.replicate 16 0
        index := 0
        pc := 0x200
        slots := Vector.replicate 16 0
        pointer := 0
        delayTimer := 0
        soundTimer := 0
        display := .blank } := by
  simp [State.reset, State.unbounded, CallStack.empty]

omit [RandomSource] in
theorem intCast_countDown (timer : UInt8) :
    ((State.countDown timer).toNat : Int) = max (timer.toNat : Int) 1 - 1 := by
  rw [State.toNat_countDown]
  omega

theorem unbounded_tickDelay (state : State) :
    state.tickDelay.unbounded = state.unbounded.tickDelay := by
  simp only [State.tickDelay, State.unbounded, UnboundedState.tickDelay, intCast_countDown]

theorem unbounded_tickSound (state : State) :
    state.tickSound.unbounded = state.unbounded.tickSound := by
  simp only [State.tickSound, State.unbounded, UnboundedState.tickSound, intCast_countDown]

/-- A request that is granted does to the numbers what it does to the state. -/
theorem unbounded_onState {command : Command} {state next : State}
    (request : command.isRequest = true) (granted : command.onState state = .ok next) :
    next.unbounded = state.unbounded.obey command := by
  cases command with
  | step | run => cases request
  | load rom =>
      obtain ⟨fits, rfl⟩ := State.load_eq_ok granted
      rw [UnboundedState.obey, if_neg (Nat.not_lt_of_le fits), UnboundedState.load,
        ← unbounded_reset]
      exact unbounded_stores rom Memory.programStart state.reset
  | pressKey key | releaseKey key =>
      rw [Command.onState, State.setKey] at granted
      split at granted
      · rename_i inside
        cases granted
        have named : (Bits.lowNibble key).val = key.toNat := by
          simp only [Bits.lowNibble]
          omega
        rw [UnboundedState.obey, UnboundedState.setKey, if_pos inside]
        simp only [UnboundedState.put, named]
        rfl
      · cases granted
  | tickDelay =>
      cases granted
      exact unbounded_tickDelay state
  | tickSound =>
      cases granted
      exact unbounded_tickSound state
  | tick =>
      cases granted
      rw [State.tick, unbounded_tickSound, unbounded_tickDelay]
      rfl
  | _ =>
      cases granted
      rfl

/-- A request that is refused does nothing to the numbers either. -/
theorem obey_of_refused {command : Command} {state : State} {fault : Fault}
    (refused : command.onState state = .error fault) :
    state.unbounded.obey command = state.unbounded := by
  cases command with
  | load rom =>
      rw [Command.onState, State.load] at refused
      split at refused
      · rename_i large
        rw [UnboundedState.obey, if_pos large]
      · cases refused
  | pressKey key | releaseKey key =>
      rw [Command.onState, State.setKey] at refused
      split at refused
      · cases refused
      · rename_i outside
        rw [UnboundedState.obey, UnboundedState.setKey, if_neg outside]
  | _ => cases refused

namespace Machine

theorem unbounded_step {machine : Machine} (runs : machine.pauses = false) :
    (machine.perform .step).machine.state.unbounded = machine.state.unbounded.step := by
  rw [UnboundedState.step, word_unbounded, ← unbounded_advance, unbounded_execute]
  cases executed : execute machine.state.advance machine.state.word with
  | ok after =>
      obtain ⟨_, _, next, stepped, -, same, -⟩ := step_of_execute_ok runs executed
      rw [perform_step_ok stepped]
      exact congrArg State.unbounded same
  | error fault =>
      rcases step_of_execute_error runs executed with
        ⟨invalid, _, next, stepped, -, -, -, -, same⟩ |
          ⟨refused, _, _, next, stepped, -, -, -, -, -, same⟩ | ⟨stack, faults⟩
      · have passed := Fault.isStackFault_eq_false (.inl invalid)
        rw [perform_step_ok stepped]
        simp [Except.map, passed, same]
      · have passed := Fault.isStackFault_eq_false (.inr refused)
        rw [perform_step_ok stepped]
        simp [Except.map, passed, same]
      · rw [perform_step_error faults]
        simp [Except.map, stack]

theorem isPause_step (machine : Machine) :
    Turn.isPause ⟨.step, (machine.perform .step).reply⟩ = machine.pauses := by
  cases step : machine.step with
  | error fault =>
      have runs : machine.pauses = false := by
        refine Bool.eq_false_iff.mpr fun pauses => ?_
        rw [step_of_pauses pauses] at step
        cases step
      rw [perform_step_error step, runs]
      rfl
  | ok outcome =>
      have paused := status_step_eq_paused_iff step
      rw [perform_step_ok step, Bool.eq_iff_iff, ← paused]
      simp [Turn.isPause, Turn.report?]

/-- A single command does to the numbers what it does to the machine, unless it pauses. -/
theorem unbounded_perform {machine : Machine} {command : Command}
    (single : command.isBatch = false) :
    (machine.perform command).machine.state.unbounded =
      if Turn.isPause ⟨command, (machine.perform command).reply⟩ then machine.state.unbounded
      else machine.state.unbounded.obey command := by
  rcases Command.step_or_request single with rfl | request
  · rw [isPause_step]
    cases pauses : machine.pauses with
    | true =>
        rw [perform_step_ok (step_of_pauses pauses)]
        rfl
    | false => exact unbounded_step pauses
  · rw [isPause_request request, if_neg Bool.false_ne_true]
    cases outcome : command.onState machine.state with
    | ok state =>
        rw [(perform_request_ok request outcome).2]
        exact unbounded_onState request outcome
    | error fault =>
        rw [perform_request_error request outcome, obey_of_refused outcome]

theorem unbounded_create (seed : Int) (dialect : Dialect) :
    (create seed dialect).state.unbounded = .initial seed dialect := by
  have stored := unbounded_stores Memory.font 0
    { State.initial seed dialect with memory := .blank }
  refine stored.trans (congrArg (UnboundedState.applyAll _) ?_)
  simp [State.unbounded, State.initial, Memory.blank, CallStack.empty]

/-- The machine over unbounded integers goes through the numbers of the machine. -/
theorem replay_history (seed : Int) (dialect : Dialect) (commands : List Command) :
    (UnboundedState.initial seed dialect).replay ((create seed dialect).history commands) =
      ((create seed dialect).after commands).state.unbounded := by
  refine history_invariant
    (fun machine past => (UnboundedState.initial seed dialect).replay past =
      machine.state.unbounded) ?_ (unbounded_create seed dialect).symm commands
  intro machine past command single same
  rw [UnboundedState.replay_concat, same, unbounded_perform single]

end Machine

/-- An instruction whose operands come from a word stores what fits, and numbers in range stay in
range. -/
theorem UnboundedState.InRange.effects {numbers : UnboundedState} (inRange : numbers.InRange)
    {operation : Operation} {word : Int} {effects : List Effect}
    (acts : numbers.effects (operation.instructionIn word) = .ok effects) :
    (∀ effect ∈ effects, effect.Fits) ∧ (numbers.applyAll effects).InRange := by
  obtain ⟨state, rfl, pointer⟩ := inRange.exists_state
  rw [effects_unbounded] at acts
  have fits := fits_of_effects acts
  refine ⟨fits, ?_⟩
  rw [← Effect.unbounded_applyAll fits]
  exact inRange_unbounded (Instruction.inRange_applyAll acts pointer)

/-- Whatever a new machine has been told, the machine over unbounded integers that has been told the
same holds the same numbers, and all of them are in range.  In any state with numbers in range, every
instruction stores only values in the range of their places, so that nothing but the two moves of
the program counter and the advance of the index can wrap, and it leaves the numbers in range. -/
theorem values_stay_in_range (seed : Int) (dialect : Dialect) (commands : List Command) :
    let start := Machine.create seed dialect
    let numbers := (UnboundedState.initial seed dialect).replay (start.history commands)
    numbers = (start.after commands).state.unbounded ∧ numbers.InRange ∧
      ∀ state : UnboundedState, state.InRange →
        ∀ (operation : Operation) (word : Int) (effects : List Effect),
          state.effects (operation.instructionIn word) = .ok effects →
            (∀ effect ∈ effects, effect.Fits) ∧ (state.applyAll effects).InRange := by
  intro start numbers
  have same : numbers = (start.after commands).state.unbounded :=
    Machine.replay_history seed dialect commands
  refine ⟨same, ?_, fun state inRange operation word effects acts => inRange.effects acts⟩
  rw [same]
  exact inRange_unbounded (Machine.pointer_bounds seed dialect commands)

end Source

/-- A jump offset by a register goes past the last cell, and its target is kept as it is. -/
theorem values_stay_in_range_past_the_last_cell :
    let commands : List Command := [.load [0x60, 0xFF, 0xBF, 0xFF], .step, .step]
    let numbers := (UnboundedState.initial 0 ⟨false, true⟩).replay
      ((Machine.create 0 ⟨false, true⟩).history commands)
    numbers.InRange ∧ numbers.pc = 0x10FE ∧
      numbers.effects (Operation.jumpOffset.instructionIn 0xBFFF) = .ok [.jump 0x10FE] ∧
      (Effect.jump 0x10FE).Fits := by
  intro commands numbers
  obtain ⟨same, inRange, stores⟩ := values_stay_in_range 0 ⟨false, true⟩ commands
  change numbers = _ at same
  have base : ((Machine.create 0 ⟨false, true⟩).after commands).state.register 0 = 0xFF := by
    decide +kernel
  have target : ((Machine.create 0 ⟨false, true⟩).after commands).state.pc = 0x10FE := by
    decide +kernel
  have acts : numbers.effects (Operation.jumpOffset.instructionIn 0xBFFF) =
      .ok [.jump 0x10FE] := by
    rw [same, effects_unbounded, Operation.instructionIn, Instruction.effects, base]
    rfl
  refine ⟨inRange, ?_, acts, (stores numbers inRange _ _ _ acts).1 _ List.mem_cons_self⟩
  rw [same, State.unbounded, target]
  rfl

end Chip8
