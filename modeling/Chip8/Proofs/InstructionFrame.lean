import Chip8.Proofs.Effects
import Chip8.Proofs.Encoding
import Chip8.Threefry

/-!
# What a word may change

Running a word changes the components of the state that its operation writes to and no others.  The
two operations that write to memory fill the cells from the index on, going on at the first cell
after the last one, and leave the rest of memory alone.
-/

namespace Chip8

/-! ## Blocks of memory -/

/-- The cells from an address on hold given bytes, and all others hold what they held before. -/
structure Memory.Receives (before after : Memory) (start : Nat) (bytes : List UInt8) : Prop where
  inside : ∀ (k : Nat) (below : k < bytes.length), after.read (start + k) = bytes[k]
  outside : ∀ address < 4096, (∀ k < bytes.length, address ≠ (start + k) % 4096) →
    after.read address = before.read address

theorem Memory.receives_writeAll (memory : Memory) (start : Nat) {bytes : List UInt8}
    (fits : bytes.length ≤ 4096) :
    memory.Receives (memory.writeAll start bytes) start bytes where
  inside k below := read_writeAll_inside fits below
  outside address below apart := by
    apply read_writeAll_outside
    intro k inside same
    rw [Nat.mod_eq_of_lt below] at same
    exact apart k inside same.symm

section Source

variable [RandomSource]

/-- The index after the registers up to `x` have been stored or loaded. -/
def State.indexAfter (state : State) (x : Fin 16) : UInt16 :=
  if state.dialect.modern then state.index else state.index + UInt16.ofInt (x.val + 1)

theorem State.toNat_indexAfter (state : State) (x : Fin 16) (old : state.dialect.modern = false) :
    (state.indexAfter x).toNat = (state.index.toNat + x + 1) % 65536 := by
  have distance := toNat_ofInt_uint16 (x.val + 1)
  rw [indexAfter, old, if_neg Bool.false_ne_true, UInt16.toNat_add]
  omega

namespace Effect

/-- Effects that store values in the cells from an address on. -/
def stores (address : Nat) : List Int → List Effect
  | [] => []
  | value :: values => .store (address % 4096) value :: stores (address + 1) values

theorem applyAll_stores (address : Nat) (values : List Int) (state : State) :
    applyAll (stores address values) state =
      { state with memory := state.memory.writeAll address (values.map UInt8.ofInt) } := by
  induction values generalizing address state with
  | nil => rfl
  | cons value values ih =>
      rw [stores, applyAll_cons, ih]
      simp only [apply, Memory.write_mod, List.map_cons, Memory.writeAll]

end Effect

namespace Instruction

theorem applyAll_afterTransfer {state before : State} (x : Fin 16)
    (kept : before.index = state.index) :
    Effect.applyAll (afterTransfer state x) before =
      { before with index := state.indexAfter x } := by
  unfold afterTransfer State.indexAfter
  rw [← kept]
  split <;> rfl

section Stores

variable (state : State) (x : Fin 16)

theorem memory_decimal :
    (Effect.applyAll (decimalEffects state x) state).memory =
      state.memory.writeAll state.index.toNat
        [UInt8.ofInt (state.register x / 100 : Nat), UInt8.ofInt (state.register x / 10 % 10 : Nat),
          UInt8.ofInt (state.register x % 10 : Nat)] :=
  congrArg State.memory <| Effect.applyAll_stores state.index.toNat
    [(state.register x / 100 : Nat), (state.register x / 10 % 10 : Nat),
      (state.register x % 10 : Nat)] state

omit [RandomSource] in
theorem upTo_eq_take : upTo x = (List.finRange 16).take (x + 1) := by
  revert x
  decide

theorem map_store_eq_stores {keys : List (Fin 16)} {offset : Nat}
    (consecutive : keys.map Fin.val = List.range' offset keys.length) (value : Fin 16 → Int) :
    (keys.map fun k : Fin 16 => Effect.store (cell state k) (value k)) =
      Effect.stores (state.index.toNat + offset) (keys.map value) := by
  induction keys generalizing offset with
  | nil => rfl
  | cons key keys ih =>
      obtain ⟨first, rest⟩ := List.cons.inj consecutive
      rw [List.map_cons, List.map_cons, Effect.stores, ih rest, cell, first]
      rfl

theorem map_registers_upTo :
    ((upTo x).map fun k : Fin 16 => UInt8.ofInt (state.register k)) =
      state.registers.toList.take (x + 1) := by
  have all : (List.finRange 16).map (fun k => state.registers[k]) = state.registers.toList := by
    apply List.ext_getElem <;> simp
  simp only [State.register, ofInt_toNat_uint8]
  rw [upTo_eq_take, List.map_take, all]

theorem applyAll_storeEffects :
    Effect.applyAll (storeEffects state x) state =
      { state with
        memory := state.memory.writeAll state.index.toNat (state.registers.toList.take (x + 1))
        index := state.indexAfter x } := by
  have consecutive : (upTo x).map Fin.val = List.range' 0 (upTo x).length := by
    revert x
    decide
  rw [storeEffects, Effect.applyAll_append,
    map_store_eq_stores state consecutive fun k => state.register k, Effect.applyAll_stores,
    List.map_map, applyAll_afterTransfer]
  · rw [← map_registers_upTo]
    rfl
  · rfl

end Stores

/-! ## The index after a transfer -/

theorem toNat_index_transfer {state : State} {x : Fin 16} {front : List Effect}
    (others : ∀ effect ∈ front, effect.component ≠ .index) (old : state.dialect.modern = false) :
    (Effect.applyAll (front ++ afterTransfer state x) state).index.toNat =
      (state.index.toNat + x + 1) % 65536 := by
  have kept : (Effect.applyAll front state).index = state.index :=
    Effect.kept_applyAll others state
  rw [Effect.applyAll_append, applyAll_afterTransfer x kept]
  exact state.toNat_indexAfter x old

end Instruction

/-! ## Which words write to a component -/

/-- The operations that write to a component when they run on the operands of a word. -/
def Component.WrittenBy (state : State) (word : Int) : Component → Operation → Prop
  | .register k, operation =>
    (k = Operand.x.registerIn word ∧
        (operation = .load ∨ operation = .add ∨ (∃ alu, operation = .combine alu) ∨
          operation = .random ∨ operation = .readDelay ∨ operation = .waitKey)) ∨
      (k = Instruction.flagRegister ∧
        ((∃ alu, alu.hasFlag = true ∧ operation = .combine alu) ∨ operation = .draw)) ∨
      (k ≤ Operand.x.registerIn word ∧ operation = .loadRegisters)
  | .index, operation =>
    operation = .loadIndex ∨ operation = .addIndex ∨ operation = .glyph ∨
      (operation = .storeRegisters ∨ operation = .loadRegisters) ∧ state.dialect.modern = false
  | .pc, operation =>
    operation = .ret ∨ operation = .jump ∨ operation = .call ∨ operation = .jumpOffset ∨
      operation = .waitKey ∨ ∃ test wanted, operation = .skip test wanted
  | .cell address, operation =>
    (operation = .decimal ∧ ∃ k < 3, address = Instruction.cell state k) ∨
      (operation = .storeRegisters ∧
        ∃ k ≤ (Operand.x.registerIn word).val, address = Instruction.cell state k)
  | .delayTimer, operation => operation = .writeDelay
  | .soundTimer, operation => operation = .writeSound
  | .display, operation => operation = .clearScreen ∨ operation = .draw
  | .stack, operation => operation = .call ∨ operation = .ret
  | .randomKey, operation => operation = .random

section Targets

variable {operation : Operation} {word : Int} {state : State}

theorem register_writtenBy {k : Fin 16}
    (target : .register k ∈ (operation.instructionIn word).targets state) :
    Component.WrittenBy state word (.register k) operation := by
  cases operation with
  | combine alu =>
      simp only [Operation.instructionIn, Instruction.targets, List.mem_append,
        List.mem_ite_nil_right, List.mem_singleton, Component.register.injEq] at target
      rcases target with ⟨flag, rfl⟩ | rfl
      · exact .inr (.inl ⟨rfl, .inl ⟨alu, flag, rfl⟩⟩)
      · exact .inl ⟨rfl, by simp⟩
  | loadRegisters =>
      have below : k ≤ Operand.x.registerIn word := by
        simpa [Operation.instructionIn, Instruction.targets, Instruction.transferTargets,
          Instruction.upTo] using target
      exact .inr (.inr ⟨below, rfl⟩)
  | draw =>
      have flag : k = Instruction.flagRegister := by
        simpa [Operation.instructionIn, Instruction.targets] using target
      exact .inr (.inl ⟨flag, .inr rfl⟩)
  | load | add | random | readDelay | waitKey =>
      have own : k = Operand.x.registerIn word := by
        simpa [Operation.instructionIn, Instruction.targets] using target
      exact .inl ⟨own, by simp⟩
  | _ =>
      simp [Operation.instructionIn, Instruction.targets, Instruction.transferTargets] at target

theorem cell_writtenBy {address : Nat}
    (target : .cell address ∈ (operation.instructionIn word).targets state) :
    Component.WrittenBy state word (.cell address) operation := by
  cases operation with
  | decimal =>
      simp only [Operation.instructionIn, Instruction.targets, List.mem_cons,
        Component.cell.injEq, List.not_mem_nil, or_false] at target
      rcases target with first | second | third
      · exact .inl ⟨rfl, 0, by decide, first⟩
      · exact .inl ⟨rfl, 1, by decide, second⟩
      · exact .inl ⟨rfl, 2, by decide, third⟩
  | storeRegisters =>
      have stored : ∃ k : Fin 16, k ≤ Operand.x.registerIn word ∧
          Instruction.cell state k = address := by
        simpa [Operation.instructionIn, Instruction.targets, Instruction.transferTargets,
          Instruction.upTo] using target
      obtain ⟨k, below, same⟩ := stored
      exact .inr ⟨rfl, k, below, same.symm⟩
  | _ =>
      simp [Operation.instructionIn, Instruction.targets, Instruction.transferTargets] at target

theorem writtenBy_of_mem_targets {component : Component}
    (target : component ∈ (operation.instructionIn word).targets state) :
    component.WrittenBy state word operation := by
  cases component with
  | register k => exact register_writtenBy target
  | index =>
      cases operation with
      | storeRegisters | loadRegisters =>
          simpa [Operation.instructionIn, Instruction.targets, Instruction.transferTargets,
            Component.WrittenBy] using target
      | _ => simp [Operation.instructionIn, Instruction.targets, Component.WrittenBy] at target ⊢
  | cell address => exact cell_writtenBy target
  | _ =>
      cases operation <;>
        simp [Operation.instructionIn, Instruction.targets, Instruction.transferTargets,
          Component.WrittenBy] at target ⊢

end Targets

/-- A component that a word has changed is written to by the operation of the word. -/
theorem exists_writer {state after : State} {word : Int} (ran : execute state word = .ok after)
    (component : Component) (changed : ¬component.Kept state after) :
    ∃ operation, Operation.Covers operation word ∧ component.WrittenBy state word operation := by
  obtain ⟨operation, effects, covers, acts, rfl⟩ := exists_effects_of_execute ran
  by_cases target : component ∈ (operation.instructionIn word).targets state
  · exact ⟨operation, covers, writtenBy_of_mem_targets target⟩
  · exact (changed (Instruction.kept_of_not_mem_targets acts target)).elim

/-! ## Words that fill memory -/

theorem receives_of_decimal {state after : State} {word : Int}
    (ran : execute state word = .ok after) (covers : Operation.decimal.Covers word) :
    ∃ hundreds tens units : UInt8,
      (hundreds.toNat ≤ 9 ∧ tens.toNat ≤ 9 ∧ units.toNat ≤ 9) ∧
        100 * hundreds.toNat + 10 * tens.toNat + units.toNat =
          state.register (Operand.x.registerIn word) ∧
        state.memory.Receives after.memory state.index.toNat [hundreds, tens, units] := by
  rw [covers.execute_eq (by decide)] at ran
  cases ran
  have bound : state.register (Operand.x.registerIn word) < 256 :=
    state.registers[Operand.x.registerIn word].toNat_lt
  have hundreds := toNat_ofInt_uint8 (state.register (Operand.x.registerIn word) / 100 : Nat)
  have tens := toNat_ofInt_uint8 (state.register (Operand.x.registerIn word) / 10 % 10 : Nat)
  have units := toNat_ofInt_uint8 (state.register (Operand.x.registerIn word) % 10 : Nat)
  refine ⟨_, _, _, ?_, ?_, Instruction.memory_decimal state _ ▸ Memory.receives_writeAll _ _ ?_⟩
  · omega
  · omega
  · simp

theorem receives_of_storeRegisters {state after : State} {word : Int}
    (ran : execute state word = .ok after) (covers : Operation.storeRegisters.Covers word) :
    state.memory.Receives after.memory state.index.toNat
      (state.registers.toList.take (Operand.x.registerIn word + 1)) := by
  rw [covers.execute_eq (by decide)] at ran
  cases ran
  refine congrArg State.memory (Instruction.applyAll_storeEffects state _) ▸
    Memory.receives_writeAll _ _ ?_
  simp
  omega

theorem index_of_transfer {state after : State} {word : Int}
    (ran : execute state word = .ok after) (old : state.dialect.modern = false)
    (transfers : Operation.storeRegisters.Covers word ∨ Operation.loadRegisters.Covers word) :
    after.index.toNat =
      (state.index.toNat + Operand.x.registerIn word + 1) % 65536 := by
  rcases transfers with covers | covers
  · rw [covers.execute_eq (by decide)] at ran
    cases ran
    refine Instruction.toNat_index_transfer ?_ old
    simp [Effect.component]
  · rw [covers.execute_eq (by decide)] at ran
    cases ran
    refine Instruction.toNat_index_transfer ?_ old
    simp [Effect.component]

/-! ## The frame of a word -/

/-- What running a word may change from one state to another, by the operation of the word. -/
structure Framed (word : Int) (before after : State) : Prop where
  keypad : after.keypad = before.keypad
  dialect : after.dialect = before.dialect
  display : after.display ≠ before.display →
    Operation.clearScreen.Covers word ∨ Operation.draw.Covers word
  memory : after.memory ≠ before.memory →
    Operation.decimal.Covers word ∨ Operation.storeRegisters.Covers word
  /-- The digits of a register go to three cells, hundreds first. -/
  digits : Operation.decimal.Covers word →
    ∃ hundreds tens units : UInt8,
      (hundreds.toNat ≤ 9 ∧ tens.toNat ≤ 9 ∧ units.toNat ≤ 9) ∧
        100 * hundreds.toNat + 10 * tens.toNat + units.toNat =
          before.register (Operand.x.registerIn word) ∧
        before.memory.Receives after.memory before.index.toNat [hundreds, tens, units]
  /-- The registers up to the named one go to as many cells. -/
  stored : Operation.storeRegisters.Covers word →
    before.memory.Receives after.memory before.index.toNat
      (before.registers.toList.take (Operand.x.registerIn word + 1))
  stack : after.stack ≠ before.stack → Operation.call.Covers word ∨ Operation.ret.Covers word
  randomKey : after.randomKey ≠ before.randomKey → Operation.random.Covers word
  delayTimer : after.delayTimer ≠ before.delayTimer → Operation.writeDelay.Covers word
  soundTimer : after.soundTimer ≠ before.soundTimer → Operation.writeSound.Covers word
  index : after.index ≠ before.index →
    Operation.loadIndex.Covers word ∨ Operation.addIndex.Covers word ∨
      Operation.glyph.Covers word ∨
      (Operation.storeRegisters.Covers word ∨ Operation.loadRegisters.Covers word) ∧
        before.dialect.modern = false
  /-- Transfers of registers move the index past the last cell in the older dialect. -/
  transferred : before.dialect.modern = false →
    Operation.storeRegisters.Covers word ∨ Operation.loadRegisters.Covers word →
    after.index.toNat = (before.index.toNat + Operand.x.registerIn word + 1) % 65536
  register (k : Fin 16) : after.register k ≠ before.register k →
    (k = Operand.x.registerIn word ∧
        (Operation.load.Covers word ∨ Operation.add.Covers word ∨
          (∃ alu, (Operation.combine alu).Covers word) ∨ Operation.random.Covers word ∨
          Operation.readDelay.Covers word ∨ Operation.waitKey.Covers word)) ∨
      (k = Instruction.flagRegister ∧
        ((∃ alu ∈ [Alu.add, .subtract, .shiftRight, .subtractFrom, .shiftLeft],
            (Operation.combine alu).Covers word) ∨ Operation.draw.Covers word)) ∨
      (k ≤ Operand.x.registerIn word ∧ Operation.loadRegisters.Covers word)

section Changes

variable {state after : State} {word : Int} (ran : execute state word = .ok after)

include ran

theorem writer_of_memory_ne (changed : after.memory ≠ state.memory) :
    Operation.decimal.Covers word ∨ Operation.storeRegisters.Covers word := by
  have cell : ∃ address, ¬(Component.cell address).Kept state after := by
    refine Classical.byContradiction fun none => changed ?_
    ext address inside
    have kept : (Component.cell address).Kept state after :=
      Classical.byContradiction fun other => none ⟨address, other⟩
    rw [kept inside]
  obtain ⟨address, changed⟩ := cell
  obtain ⟨operation, covers, ⟨rfl, -⟩ | ⟨rfl, -⟩⟩ := exists_writer ran (.cell address) changed
  · exact .inl covers
  · exact .inr covers

theorem writer_of_index_ne (changed : after.index ≠ state.index) :
    Operation.loadIndex.Covers word ∨ Operation.addIndex.Covers word ∨
      Operation.glyph.Covers word ∨
      (Operation.storeRegisters.Covers word ∨ Operation.loadRegisters.Covers word) ∧
        state.dialect.modern = false := by
  have writer := exists_writer ran .index changed
  obtain ⟨operation, covers, rfl | rfl | rfl | ⟨rfl | rfl, old⟩⟩ := writer
  · exact .inl covers
  · exact .inr (.inl covers)
  · exact .inr (.inr (.inl covers))
  · exact .inr (.inr (.inr ⟨.inl covers, old⟩))
  · exact .inr (.inr (.inr ⟨.inr covers, old⟩))

theorem writer_of_register_ne {k : Fin 16} (changed : after.register k ≠ state.register k) :
    (k = Operand.x.registerIn word ∧
        (Operation.load.Covers word ∨ Operation.add.Covers word ∨
          (∃ alu, (Operation.combine alu).Covers word) ∨ Operation.random.Covers word ∨
          Operation.readDelay.Covers word ∨ Operation.waitKey.Covers word)) ∨
      (k = Instruction.flagRegister ∧
        ((∃ alu ∈ [Alu.add, .subtract, .shiftRight, .subtractFrom, .shiftLeft],
            (Operation.combine alu).Covers word) ∨ Operation.draw.Covers word)) ∨
      (k ≤ Operand.x.registerIn word ∧ Operation.loadRegisters.Covers word) := by
  have writer := exists_writer ran (.register k) changed
  obtain ⟨operation, covers, ⟨own, kind⟩ | ⟨flag, kind⟩ | ⟨below, rfl⟩⟩ := writer
  · refine .inl ⟨own, ?_⟩
    rcases kind with rfl | rfl | ⟨alu, rfl⟩ | rfl | rfl | rfl
    · exact .inl covers
    · exact .inr (.inl covers)
    · exact .inr (.inr (.inl ⟨alu, covers⟩))
    · exact .inr (.inr (.inr (.inl covers)))
    · exact .inr (.inr (.inr (.inr (.inl covers))))
    · exact .inr (.inr (.inr (.inr (.inr covers))))
  · refine .inr (.inl ⟨flag, ?_⟩)
    rcases kind with ⟨alu, has_flag, rfl⟩ | rfl
    · exact .inl ⟨alu, Alu.mem_of_hasFlag has_flag, covers⟩
    · exact .inr covers
  · exact .inr (.inr ⟨below, covers⟩)

end Changes

/-- Running a word changes what the frame of the word allows, whatever the state. -/
theorem execute_framed {state after : State} {word : Int}
    (ran : execute state word = .ok after) : Framed word state after where
  keypad := by
    obtain ⟨operation, effects, -, -, rfl⟩ := exists_effects_of_execute ran
    exact Effect.keypad_applyAll effects state
  dialect := by
    obtain ⟨operation, effects, -, -, rfl⟩ := exists_effects_of_execute ran
    exact Effect.dialect_applyAll effects state
  display changed := by
    obtain ⟨operation, covers, rfl | rfl⟩ := exists_writer ran .display changed
    · exact .inl covers
    · exact .inr covers
  memory := writer_of_memory_ne ran
  digits := receives_of_decimal ran
  stored := receives_of_storeRegisters ran
  stack changed := by
    obtain ⟨operation, covers, rfl | rfl⟩ := exists_writer ran .stack changed
    · exact .inl covers
    · exact .inr covers
  randomKey changed := by
    obtain ⟨operation, covers, rfl⟩ := exists_writer ran .randomKey changed
    exact covers
  delayTimer changed := by
    obtain ⟨operation, covers, rfl⟩ := exists_writer ran .delayTimer changed
    exact covers
  soundTimer changed := by
    obtain ⟨operation, covers, rfl⟩ := exists_writer ran .soundTimer changed
    exact covers
  index := writer_of_index_ne ran
  transferred := index_of_transfer ran
  register _ := writer_of_register_ne ran

end Source

/-- Registers stored from the last two cells on go on at the first cells. -/
theorem execute_framed_across_the_end :
    let registers := (Vector.replicate 16 (0 : UInt8)).set 3 7
    let state := { State.initial 0 ⟨false, true⟩ with index := 0xFFE, registers }
    ∃ after, execute state 0xF355 = .ok after ∧ after.memory.read 1 = 7 ∧
      after.index.toNat = 0x1002 ∧ after.display = state.display := by
  intro registers state
  have covers : Operation.storeRegisters.Covers 0xF355 := by decide
  obtain ⟨after, ran⟩ : ∃ after, execute state 0xF355 = .ok after :=
    ⟨_, covers.execute_eq (by decide) state⟩
  have framed := execute_framed ran
  have fourth : after.memory.read (0xFFE + 3) = 7 := (framed.stored covers).inside 3 (by decide)
  have wrapped : after.memory.read 1 = after.memory.read (0xFFE + 3) :=
    after.memory.read_mod (0xFFE + 3)
  refine ⟨after, ran, wrapped.trans fourth, framed.transferred rfl (.inl covers), ?_⟩
  exact Classical.byContradiction fun changed => absurd (framed.display changed) (by decide)

end Chip8
