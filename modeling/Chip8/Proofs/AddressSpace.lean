import Chip8.Proofs.Lockstep
import Chip8.Threefry

/-!
# Addresses modulo the size of memory

Addresses are kept in sixteen bits, and memory looks at the lowest twelve of them.  States that
differ only in the higher bits of the program counter, the index and the slots of the call stack
cannot be told apart by any run without breakpoints.  Effects and reports are compared after folding
their addresses into memory.
-/

namespace Chip8

section Source

variable [RandomSource]

/-- States that agree up to the higher bits of their addresses. -/
structure State.Congruent (left right : State) : Prop where
  memory : left.memory = right.memory
  registers : left.registers = right.registers
  index : left.index.toNat % 4096 = right.index.toNat % 4096
  pc : left.pc.toNat % 4096 = right.pc.toNat % 4096
  pointer : left.stack.pointer = right.stack.pointer
  slots : ∀ slot : Fin 16,
    left.stack.slots[slot].toNat % 4096 = right.stack.slots[slot].toNat % 4096
  delayTimer : left.delayTimer = right.delayTimer
  soundTimer : left.soundTimer = right.soundTimer
  keypad : left.keypad = right.keypad
  display : left.display = right.display
  randomKey : left.randomKey = right.randomKey
  dialect : left.dialect = right.dialect

/-- An effect with its address folded into memory. -/
def Effect.folded : Effect → Effect
  | .setIndex address => .setIndex (address % 4096)
  | .jump address => .jump (address % 4096)
  | .push address => .push (address % 4096)
  | effect => effect

/-- A report with its address folded into memory. -/
def StepResult.folded (result : StepResult) : StepResult :=
  { result with address := result.address % 4096 }

/-- A turn with the address of its report folded into memory. -/
def Turn.folded : Turn → Turn
  | ⟨command, .ok (.stepped result)⟩ => ⟨command, .ok (.stepped result.folded)⟩
  | turn => turn

omit [RandomSource] in
theorem Turn.folded_eq_mapReport : Turn.folded = Turn.mapReport StepResult.folded := by
  funext turn
  obtain ⟨command, reply⟩ := turn
  cases reply with
  | error fault => rfl
  | ok reply => cases reply <;> rfl

/-! ## Sixteen-bit addresses -/

omit [RandomSource] in
theorem toNat_ofInt_mod_memory (address : Int) :
    ((UInt16.ofInt address).toNat : Int) % 4096 = address % 4096 := by
  rw [toNat_ofInt_uint16]
  omega

omit [RandomSource] in
theorem toNat_add_mod_memory {left right : UInt16}
    (same : left.toNat % 4096 = right.toNat % 4096) (offset : UInt16) :
    (left + offset).toNat % 4096 = (right + offset).toNat % 4096 := by
  simp only [UInt16.toNat_add]
  omega

omit [RandomSource] in
theorem toNat_sub_mod_memory {left right : UInt16}
    (same : left.toNat % 4096 = right.toNat % 4096) (offset : UInt16) :
    (left - offset).toNat % 4096 = (right - offset).toNat % 4096 := by
  simp only [UInt16.toNat_sub]
  omega

namespace State.Congruent

variable {left middle right : State}

theorem refl (state : State) : state.Congruent state := by
  constructor <;> simp

theorem symm (congruent : left.Congruent right) : right.Congruent left where
  memory := congruent.memory.symm
  registers := congruent.registers.symm
  index := congruent.index.symm
  pc := congruent.pc.symm
  pointer := congruent.pointer.symm
  slots slot := (congruent.slots slot).symm
  delayTimer := congruent.delayTimer.symm
  soundTimer := congruent.soundTimer.symm
  keypad := congruent.keypad.symm
  display := congruent.display.symm
  randomKey := congruent.randomKey.symm
  dialect := congruent.dialect.symm

theorem trans (first : left.Congruent middle) (second : middle.Congruent right) :
    left.Congruent right where
  memory := first.memory.trans second.memory
  registers := first.registers.trans second.registers
  index := first.index.trans second.index
  pc := first.pc.trans second.pc
  pointer := first.pointer.trans second.pointer
  slots slot := (first.slots slot).trans (second.slots slot)
  delayTimer := first.delayTimer.trans second.delayTimer
  soundTimer := first.soundTimer.trans second.soundTimer
  keypad := first.keypad.trans second.keypad
  display := first.display.trans second.display
  randomKey := first.randomKey.trans second.randomKey
  dialect := first.dialect.trans second.dialect

/-! ## What congruent states show -/

theorem register (congruent : left.Congruent right) (x : Fin 16) :
    left.register x = right.register x := by
  simp only [State.register, congruent.registers]

theorem cell (congruent : left.Congruent right) (offset : Nat) :
    Instruction.cell left offset = Instruction.cell right offset := by
  have index := congruent.index
  simp only [Instruction.cell]
  omega

theorem word (congruent : left.Congruent right) : left.word = right.word := by
  have low : left.pc.toNat % 4096 = right.pc.toNat % 4096 := congruent.pc
  have high : (left.pc.toNat + 1) % 4096 = (right.pc.toNat + 1) % 4096 := by omega
  simp only [State.word, Memory.word, Memory.read, congruent.memory, low, high]

theorem top (congruent : left.Congruent right) :
    left.stack.top.toNat % 4096 = right.stack.top.toNat % 4096 := by
  simp only [CallStack.top, congruent.pointer]
  exact congruent.slots _

theorem pressedKeys (congruent : left.Congruent right) : left.pressedKeys = right.pressedKeys := by
  simp only [State.pressedKeys, congruent.keypad]

theorem advance (congruent : left.Congruent right) : left.advance.Congruent right.advance :=
  { congruent with pc := toNat_add_mod_memory congruent.pc 2 }

/-! ## Effects -/

theorem apply (congruent : left.Congruent right) (effect : Effect) :
    (effect.apply left).Congruent (effect.apply right) := by
  cases effect with
  | setRegister register value =>
      refine { congruent with registers := ?_ }
      simp only [Effect.apply, State.setRegister, congruent.registers]
  | setIndex address => exact { congruent with index := rfl }
  | advanceIndex distance =>
      exact { congruent with index := toNat_add_mod_memory congruent.index _ }
  | jump address => exact { congruent with pc := rfl }
  | skip => exact { congruent with pc := toNat_add_mod_memory congruent.pc 2 }
  | hold => exact { congruent with pc := toNat_sub_mod_memory congruent.pc 2 }
  | store address value =>
      refine { congruent with memory := ?_ }
      simp only [Effect.apply, congruent.memory]
  | setDelay value => exact { congruent with delayTimer := rfl }
  | setSound value => exact { congruent with soundTimer := rfl }
  | redraw display => exact { congruent with display := rfl }
  | push address =>
      refine { congruent with pointer := ?_, slots := ?_ }
      · simp only [Effect.apply, CallStack.place, congruent.pointer]
      · intro slot
        have kept := congruent.slots slot
        simp only [Effect.apply, CallStack.place, congruent.pointer, Fin.getElem_fin,
          Vector.getElem_set] at kept ⊢
        split
        · rfl
        · exact kept
  | pop =>
      refine { congruent with pointer := ?_ }
      simp only [Effect.apply, CallStack.drop, congruent.pointer]
  | reseed key => exact { congruent with randomKey := rfl }

/-- An effect and its folding lead to congruent states. -/
theorem apply_folded (effect : Effect) (state : State) :
    (effect.apply state).Congruent (effect.folded.apply state) := by
  have same (address : Int) : (UInt16.ofInt address).toNat % 4096 =
      (UInt16.ofInt (address % 4096)).toNat % 4096 := by
    have plain := toNat_ofInt_mod_memory address
    have folded := toNat_ofInt_mod_memory (address % 4096)
    omega
  cases effect with
  | setIndex address => exact { refl _ with index := same address }
  | jump address => exact { refl _ with pc := same address }
  | push address =>
      refine { refl _ with slots := ?_ }
      intro slot
      simp only [Effect.apply, Effect.folded, CallStack.place, Fin.getElem_fin,
        Vector.getElem_set]
      split
      · exact same address
      · rfl
  | _ => exact refl _

/-- Effects with the same foldings keep states congruent. -/
theorem applyAll {effects others : List Effect}
    (same : effects.map Effect.folded = others.map Effect.folded)
    (congruent : left.Congruent right) :
    (Effect.applyAll effects left).Congruent (Effect.applyAll others right) := by
  induction effects generalizing others left right with
  | nil =>
      obtain rfl := List.map_eq_nil_iff.mp same.symm
      exact congruent
  | cons effect effects ih =>
      cases others with
      | nil => cases same
      | cons other others =>
          obtain ⟨same_effect, same_rest⟩ := List.cons.inj same
          have folded := congruent.apply other.folded
          have from_left := apply_folded effect left
          rw [same_effect] at from_left
          have first : (effect.apply left).Congruent (other.apply right) :=
            (from_left.trans folded).trans (apply_folded other right).symm
          rw [Effect.applyAll_cons, Effect.applyAll_cons]
          exact ih same_rest first

/-! ## Instructions -/

theorem holds (congruent : left.Congruent right) (condition : Condition) :
    condition.holds left = condition.holds right := by
  cases condition with
  | equalsByte x value => simp only [Condition.holds, congruent.register]
  | equalsRegister x y => simp only [Condition.holds, congruent.register]
  | keyDown x => simp only [Condition.holds, congruent.register, congruent.keypad]

theorem afterTransfer (congruent : left.Congruent right) (x : Fin 16) :
    Instruction.afterTransfer left x = Instruction.afterTransfer right x := by
  simp only [Instruction.afterTransfer, congruent.dialect]

theorem combineEffects (congruent : left.Congruent right) (operation : Alu) (x y : Fin 16) :
    Instruction.combineEffects left operation x y =
      Instruction.combineEffects right operation x y := by
  simp only [Instruction.combineEffects, Instruction.leftOperand, congruent.register,
    congruent.dialect]

theorem drawEffects (congruent : left.Congruent right) (x y : Fin 16) (height : Int) :
    Instruction.drawEffects left x y height = Instruction.drawEffects right x y height := by
  simp only [Instruction.drawEffects, congruent.register, congruent.cell, congruent.memory,
    congruent.display]

theorem waitEffects (congruent : left.Congruent right) (x : Fin 16) :
    Instruction.waitEffects left x = Instruction.waitEffects right x := by
  simp only [Instruction.waitEffects, congruent.pressedKeys]

theorem waits (congruent : left.Congruent right) (instruction : Instruction) :
    instruction.waits left = instruction.waits right := by
  cases instruction with
  | waitKey x => simp only [Instruction.waits, congruent.pressedKeys]
  | _ => rfl

/-- An instruction is refused in both of two congruent states or has effects with the same
foldings. -/
theorem effects (congruent : left.Congruent right) (instruction : Instruction) :
    (instruction.effects left).map (List.map Effect.folded) =
      (instruction.effects right).map (List.map Effect.folded) := by
  cases instruction with
  | ret =>
      have top := congruent.top
      have same : ((left.stack.top.toNat : Int) % 4096) = (right.stack.top.toNat : Int) % 4096 := by
        omega
      simp only [Instruction.effects_ret, congruent.pointer]
      split
      · rfl
      · simp only [Except.map, List.map_cons, List.map_nil, Effect.folded, same]
  | call address =>
      have pc := congruent.pc
      have same : ((left.pc.toNat : Int) % 4096) = (right.pc.toNat : Int) % 4096 := by omega
      simp only [Instruction.effects_call, congruent.pointer]
      split
      · rfl
      · simp only [Except.map, List.map_cons, List.map_nil, Effect.folded, same]
  | addIndex x =>
      have index := congruent.index
      have same : (((left.index.toNat + right.register x) % 65536 : Nat) : Int) % 4096 =
          ((right.index.toNat + right.register x) % 65536 : Nat) % 4096 := by
        omega
      simp only [Instruction.effects, Except.map, List.map_cons, List.map_nil, Effect.folded,
        congruent.register, same]
  | skip condition wanted => simp only [Instruction.effects, congruent.holds]
  | combine operation x y => simp only [Instruction.effects, congruent.combineEffects]
  | jumpOffset address => simp only [Instruction.effects, congruent.register]
  | random x mask => simp only [Instruction.effects, congruent.randomKey]
  | draw x y height => simp only [Instruction.effects, congruent.drawEffects]
  | readDelay x => simp only [Instruction.effects, congruent.delayTimer]
  | waitKey x => simp only [Instruction.effects, congruent.waitEffects]
  | add | writeDelay | writeSound | glyph =>
      simp only [Instruction.effects, congruent.register]
  | decimal x =>
      simp only [Instruction.effects, Instruction.decimalEffects, congruent.register,
        congruent.cell]
  | storeRegisters x =>
      simp only [Instruction.effects, Instruction.storeEffects, congruent.register,
        congruent.cell, congruent.afterTransfer]
  | loadRegisters x =>
      simp only [Instruction.effects, Instruction.loadEffects, congruent.memory, congruent.cell,
        congruent.afterTransfer]
  | _ => rfl

/-! ## Requests -/

/-- A request that edits no breakpoint is refused in both of two congruent states or keeps them
congruent. -/
theorem onState (congruent : left.Congruent right) (command : Command) :
    (∃ fault, command.onState left = .error fault ∧ command.onState right = .error fault) ∨
      ∃ leftNext rightNext, command.onState left = .ok leftNext ∧
        command.onState right = .ok rightNext ∧ leftNext.Congruent rightNext := by
  cases command with
  | load rom =>
      simp only [Command.onState, State.load]
      split
      · exact .inl ⟨_, rfl, rfl⟩
      · refine .inr ⟨_, _, rfl, rfl, ?_⟩
        refine { refl left.reset with
          memory := ?_, keypad := congruent.keypad, randomKey := congruent.randomKey,
          dialect := congruent.dialect }
        simp only [congruent.memory]
  | pressKey key | releaseKey key =>
      simp only [Command.onState, State.setKey]
      split
      · refine .inr ⟨_, _, rfl, rfl, { congruent with keypad := ?_ }⟩
        simp only [congruent.keypad]
      · exact .inl ⟨_, rfl, rfl⟩
  | tickDelay =>
      refine .inr ⟨_, _, rfl, rfl, { congruent with delayTimer := ?_ }⟩
      simp only [State.tickDelay, congruent.delayTimer]
  | tickSound =>
      refine .inr ⟨_, _, rfl, rfl, { congruent with soundTimer := ?_ }⟩
      simp only [State.tickSound, congruent.soundTimer]
  | tick =>
      refine .inr ⟨_, _, rfl, rfl, { congruent with delayTimer := ?_, soundTimer := ?_ }⟩
      · simp only [State.tick, State.tickDelay, State.tickSound, congruent.delayTimer]
      · simp only [State.tick, State.tickDelay, State.tickSound, congruent.soundTimer]
  | _ => exact .inr ⟨_, _, rfl, rfl, congruent⟩

end State.Congruent

namespace Machine

/-- Machines without breakpoints whose states are congruent. -/
structure Congruent (left right : Machine) : Prop where
  left_free : left.breakpoints = .empty
  right_free : right.breakpoints = .empty
  state : left.state.Congruent right.state

section Steps

variable {left right : Machine}

theorem Congruent.report (congruent : left.Congruent right) (status : StepStatus)
    (mnemonic : String) (name error : Option String) :
    (left.report status mnemonic name error).folded =
      (right.report status mnemonic name error).folded := by
  have pc := congruent.state.pc
  have same : (left.state.pc.toNat : Int) % 4096 = right.state.pc.toNat % 4096 := by omega
  simp only [Machine.report, StepResult.folded, congruent.state.word, same]

theorem Congruent.proceed {leftState rightState : State} (congruent : left.Congruent right)
    (states : leftState.Congruent rightState) :
    (left.proceed leftState).Congruent (right.proceed rightState) :=
  ⟨congruent.left_free, congruent.right_free, states⟩

/-- Congruent machines take the same step. -/
theorem Congruent.step (congruent : left.Congruent right) :
    Agree Congruent StepResult.folded left.step right.step := by
  have runs : left.pauses = right.pauses :=
    (pauses_of_no_breakpoints congruent.left_free).trans
      (pauses_of_no_breakpoints congruent.right_free).symm
  have advanced := congruent.state.advance
  apply Matches.step
  refine ⟨congruent, congruent.state.word, runs, congruent.state.waits, congruent.report, ?_,
    congruent.proceed advanced, fun instruction => ?_⟩
  · exact ⟨congruent.left_free, congruent.right_free, congruent.state⟩
  rcases eq_or_eq_of_map_eq_map (advanced.effects instruction) with
    refused | ⟨effects, others, left_acts, right_acts, same⟩
  · exact .inl refused
  · exact .inr ⟨effects, others, left_acts, right_acts,
      congruent.proceed (advanced.applyAll same)⟩

end Steps

/-! ## Requests -/

theorem Congruent.request {left right : Machine} {command : Command}
    (congruent : left.Congruent right) (request : command.isRequest = true)
    (other : command.editsBreakpoints = false) :
    (left.perform command).reply = (right.perform command).reply ∧
      (left.perform command).machine.Congruent (right.perform command).machine := by
  have single : command.isBatch = false := by cases command <;> first | rfl | cases request
  refine request_of_onState congruent request (congruent.state.onState command) ?_
  intro _ _ _ _ states
  refine ⟨?_, ?_, states⟩
  · rw [breakpoints_perform single other, congruent.left_free]
  · rw [breakpoints_perform single other, congruent.right_free]

/-! ## Runs -/

theorem Congruent.lockstep :
    Lockstep Congruent StepResult.folded fun _ command => command.editsBreakpoints = false where
  status _ := rfl
  step congruent _ := congruent.step
  request congruent request other := congruent.request request other

theorem Congruent.after {left right : Machine} {commands : List Command}
    (congruent : left.Congruent right)
    (allowed : ∀ command ∈ commands, command.editsBreakpoints = false) :
    (left.after commands).Congruent (right.after commands) ∧
      (left.history commands).map Turn.folded = (right.history commands).map Turn.folded := by
  rw [Turn.folded_eq_mapReport]
  refine Congruent.lockstep.run congruent fun done command early => ?_
  have member : command ∈ left.singles commands :=
    early.subset (List.mem_append_right done (List.mem_singleton_self command))
  rcases step_or_mem_of_mem_singles member with rfl | member
  · rfl
  · exact allowed command member

theorem stack_fault_of_mem_history (machine : Machine) (commands : List Command) :
    ∀ fault, ⟨.step, .error fault⟩ ∈ machine.history commands →
      fault = .stackUnderflow ∨ ∃ pointer, fault = .stackOverflow pointer := by
  refine history_invariant (fun _ past => ∀ fault, ⟨.step, .error fault⟩ ∈ past →
    fault = .stackUnderflow ∨ ∃ pointer, fault = .stackOverflow pointer) ?_ ?_ commands
  · intro machine past command single holds fault member
    rcases List.mem_append.mp member with before | now
    · exact holds fault before
    · obtain ⟨rfl, reply⟩ := Turn.mk.inj (List.mem_singleton.mp now)
      cases step : machine.step with
      | ok outcome =>
          rw [perform_step_ok step] at reply
          cases reply
      | error raised =>
          rw [perform_step_error step] at reply
          cases reply
          rcases step_error_eq step with underflow | overflow
          · exact .inl underflow
          · exact .inr ⟨_, overflow⟩
  · intro fault member
    cases member

/-- Runs without breakpoints that start in congruent states have the same turns up to the higher
bits of addresses, stay congruent all the way, and the steps that fault do so in the call stack. -/
theorem histories_agree_modulo_memory {left right : Machine} {commands : List Command}
    (left_free : left.breakpoints = .empty) (right_free : right.breakpoints = .empty)
    (congruent : left.state.Congruent right.state)
    (allowed : ∀ command ∈ commands, command.editsBreakpoints = false) :
    (left.history commands).map Turn.folded = (right.history commands).map Turn.folded ∧
      (∀ done, done <+: commands →
        (left.after done).state.Congruent (right.after done).state) ∧
      ∀ fault, ⟨.step, .error fault⟩ ∈ left.history commands →
        fault = .stackUnderflow ∨ ∃ pointer, fault = .stackOverflow pointer := by
  have start : left.Congruent right := ⟨left_free, right_free, congruent⟩
  refine ⟨(start.after allowed).2, ?_, left.stack_fault_of_mem_history commands⟩
  intro done before
  exact (start.after fun command member => allowed command (before.subset member)).1.state

end Machine

end Source

/-- A program is run alike at its address and at a mirror of it. -/
theorem Machine.histories_agree_from_mirrored_start :
    let left := (create 0 ⟨true, true⟩).after [.load [0xF1, 0x0A, 0x22, 0x00]]
    let right : Machine := { left with state := { left.state with pc := 0x1200, index := 0xF000 } }
    let commands := [.step, .pressKey 3, .step, .tick, .run 40 none]
    left.state.pc ≠ right.state.pc ∧ left.state.Congruent right.state ∧
      (left.history commands).map Turn.folded = (right.history commands).map Turn.folded := by
  intro left right commands
  have congruent : left.state.Congruent right.state :=
    { State.Congruent.refl left.state with index := by decide +kernel, pc := by decide +kernel }
  have allowed : ∀ command ∈ commands, command.editsBreakpoints = false := by decide
  exact ⟨by decide +kernel, congruent,
    (histories_agree_modulo_memory rfl rfl congruent allowed).1⟩

end Chip8
