import Mathlib.Order.Fin.Basic
import Chip8.Proofs.InstructionFrame
import Chip8.Threefry

/-!
# Storing and loading registers

Storing puts the registers up to a named one into the cells from the index on, going on at the first
cell after the last one, and loading takes them from there.  The cells are distinct, so each takes
the other back as long as the index is put back too, which the older dialect moves past the cells.
There, one store after another fills adjacent blocks of memory.
-/

namespace Chip8

section Source

variable [RandomSource]

namespace State

/-- The registers up to `x`, in order. -/
def registersUpTo (state : State) (x : Fin 16) : List UInt8 :=
  state.registers.toList.take (x + 1)

/-- The state after the registers up to `x` have been stored. -/
def storeUpTo (state : State) (x : Fin 16) : State :=
  { state with
    memory := state.memory.writeAll state.index.toNat (state.registersUpTo x)
    index := state.indexAfter x }

/-- The state after the registers up to `x` have been loaded. -/
def loadUpTo (state : State) (x : Fin 16) : State :=
  { state with
    registers := Vector.ofFn fun k =>
      if k ≤ x then state.memory.read (state.index.toNat + k) else state.registers.get k
    index := state.indexAfter x }

section Transfer

variable (state : State) (x : Fin 16)

@[simp]
theorem length_registersUpTo : (state.registersUpTo x).length = x + 1 := by
  simp only [registersUpTo, List.length_take, Vector.length_toList]
  omega

theorem getElem_registersUpTo {k : Fin 16} (inside : k.val < (state.registersUpTo x).length) :
    (state.registersUpTo x)[k.val] = state.registers.get k := by
  simp only [registersUpTo, List.getElem_take, Vector.getElem_toList]
  rfl

/-! ## Each transfer takes the other back -/

@[simp]
theorem memory_loadUpTo : (state.loadUpTo x).memory = state.memory := by
  rw [loadUpTo]

theorem get_registers_loadUpTo (k : Fin 16) :
    (state.loadUpTo x).registers.get k =
      if k ≤ x then state.memory.read (state.index.toNat + k) else state.registers.get k :=
  Vector.getElem_ofFn k.isLt

/-- The cells that have been stored into hold the registers, one cell for each. -/
theorem read_storeUpTo {k : Fin 16} (below : k ≤ x) :
    (state.storeUpTo x).memory.read (state.index.toNat + k) = state.registers.get k := by
  have inside : k.val < (state.registersUpTo x).length := by
    rw [length_registersUpTo]
    omega
  have fits : (state.registersUpTo x).length ≤ 4096 := by
    rw [length_registersUpTo]
    omega
  rw [storeUpTo, Memory.read_writeAll_inside fits inside, getElem_registersUpTo]

/-- Loading from the cells that have just been stored into, whatever the registers are by then. -/
theorem get_loadUpTo_storeUpTo (registers : Vector UInt8 16) (k : Fin 16) :
    ({ state.storeUpTo x with registers, index := state.index }.loadUpTo x).registers.get k =
      if k ≤ x then state.registers.get k else registers.get k := by
  rw [get_registers_loadUpTo]
  split
  case isTrue below => exact read_storeUpTo state x below
  case isFalse => rfl

/-- Storing changes no cell when the cells hold the registers already. -/
theorem memory_storeUpTo_eq_self
    (there : ∀ k ≤ x, state.registers.get k = state.memory.read (state.index.toNat + k)) :
    (state.storeUpTo x).memory = state.memory := by
  change state.memory.writeAll state.index.toNat (state.registersUpTo x) = state.memory
  apply Memory.writeAll_eq_self
  intro k inside
  have early : k < x + 1 := by simpa using inside
  have number : k < 16 := by omega
  have below : (⟨k, number⟩ : Fin 16) ≤ x := Nat.le_of_lt_succ early
  exact (state.getElem_registersUpTo x (k := ⟨k, number⟩) inside).trans (there _ below)

/-- Storing into the cells that have just been loaded from. -/
theorem memory_storeUpTo_loadUpTo :
    ({ state.loadUpTo x with index := state.index }.storeUpTo x).memory = state.memory := by
  have kept := memory_loadUpTo state x
  have there (k : Fin 16) (below : k ≤ x) : (state.loadUpTo x).registers.get k =
      (state.loadUpTo x).memory.read (state.index.toNat + k) := by
    rw [get_registers_loadUpTo, if_pos below, kept]
  -- Nothing else about the loaded state counts, and to unfold it here is slow.
  generalize state.loadUpTo x = loaded at kept there ⊢
  rw [← kept]
  exact memory_storeUpTo_eq_self { loaded with index := state.index } x there

/-! ## One store after another -/

/-- In the older dialect a second store goes on where the first has ended. -/
theorem receives_storeUpTo_storeUpTo (y : Fin 16) (old : state.dialect.modern = false) :
    state.memory.Receives ((state.storeUpTo x).storeUpTo y).memory state.index.toNat
      (state.registersUpTo x ++ state.registersUpTo y) := by
  have moved := toNat_indexAfter state x old
  have adjacent : (state.indexAfter x).toNat % 4096 =
      (state.index.toNat + (state.registersUpTo x).length) % 4096 := by
    rw [length_registersUpTo]
    omega
  have written : ((state.storeUpTo x).storeUpTo y).memory =
      state.memory.writeAll state.index.toNat
        (state.registersUpTo x ++ state.registersUpTo y) := by
    rw [Memory.writeAll_append, ← Memory.writeAll_congr adjacent]
    rfl
  rw [written]
  apply Memory.receives_writeAll
  rw [List.length_append, length_registersUpTo, length_registersUpTo]
  omega

end Transfer

end State

/-! ## The effects of a transfer -/

namespace Effect

/-- Registers that are given values hold these, and the others hold what they held. -/
theorem applyAll_setRegisters (keys : List (Fin 16)) (value : Fin 16 → Int) (state : State) :
    applyAll (keys.map fun k => .setRegister k (value k)) state =
      { state with registers := Vector.ofFn fun k =>
          if k ∈ keys then UInt8.ofInt (value k) else state.registers.get k } := by
  induction keys generalizing state with
  | nil =>
      have same : (Vector.ofFn fun k => state.registers.get k) = state.registers :=
        Vector.ext fun k inside => Vector.getElem_ofFn inside
      simp [same]
  | cons key keys ih =>
      have one (k : Fin 16) :
          (if k ∈ keys then UInt8.ofInt (value k)
            else (state.setRegister key (UInt8.ofInt (value key))).registers.get k) =
          if k ∈ key :: keys then UInt8.ofInt (value k) else state.registers.get k := by
        have stored : (state.setRegister key (UInt8.ofInt (value key))).registers.get k =
            if key.val = k.val then UInt8.ofInt (value key) else state.registers.get k :=
          Vector.getElem_set key.isLt k.isLt
        rw [stored]
        by_cases same : key = k
        · simp [same]
        · have apart : key.val ≠ k.val := fun equal => same (Fin.ext equal)
          simp [Ne.symm same, apart]
      rw [List.map_cons, applyAll_cons, ih]
      simp only [apply, one]
      rfl

end Effect

namespace Instruction

theorem applyAll_loadEffects (state : State) (x : Fin 16) :
    Effect.applyAll (loadEffects state x) state = state.loadUpTo x := by
  rw [loadEffects, Effect.applyAll_append,
    Effect.applyAll_setRegisters _ fun k => (state.memory.read (cell state k)).toNat,
    applyAll_afterTransfer]
  · simp only [upTo, List.mem_filter, List.mem_finRange, decide_eq_true_eq, true_and, cell,
      Memory.read_mod, ofInt_toNat_uint8]
    rfl
  · rfl

end Instruction

theorem execute_storeRegisters {word : Int} (covers : Operation.storeRegisters.Covers word)
    (state : State) :
    execute state word = .ok (state.storeUpTo (Operand.x.registerIn word)) := by
  rw [covers.execute_eq (by decide)]
  exact congrArg Except.ok (Instruction.applyAll_storeEffects state _)

theorem execute_loadRegisters {word : Int} (covers : Operation.loadRegisters.Covers word)
    (state : State) :
    execute state word = .ok (state.loadUpTo (Operand.x.registerIn word)) := by
  rw [covers.execute_eq (by decide)]
  exact congrArg Except.ok (Instruction.applyAll_loadEffects state _)

/-- Registers that have been stored are loaded again, and cells that have been loaded are stored
again, with the index put back in between.  The older dialect moves the index past the cells, so
that one store goes on where another has ended. -/
theorem register_transfers_undo_each_other {store load : Int} {x : Fin 16}
    (stores : Operation.storeRegisters.Covers store ∧ Operand.x.registerIn store = x)
    (loads : Operation.loadRegisters.Covers load ∧ Operand.x.registerIn load = x) (state : State) :
    (∃ stored, execute state store = .ok stored ∧
      ∀ registers, ∃ loaded,
        execute { stored with registers, index := state.index } load = .ok loaded ∧
          (∀ k ≤ x, loaded.registers.get k = state.registers.get k) ∧
          (∀ k, x < k → loaded.registers.get k = registers.get k) ∧ loaded.memory = stored.memory) ∧
    (∃ loaded, execute state load = .ok loaded ∧
      ∃ stored, execute { loaded with index := state.index } store = .ok stored ∧
        stored.memory = state.memory) ∧
    (state.dialect.modern = false →
      (∃ stored, execute state store = .ok stored ∧
        stored.index.toNat = (state.index.toNat + x + 1) % 65536 ∧
        ∀ next y, Operation.storeRegisters.Covers next → Operand.x.registerIn next = y →
          ∃ after, execute stored next = .ok after ∧
            state.memory.Receives after.memory state.index.toNat
              (state.registers.toList.take (x + 1) ++ state.registers.toList.take (y + 1))) ∧
      ∃ loaded, execute state load = .ok loaded ∧
        loaded.index.toNat = (state.index.toNat + x + 1) % 65536) := by
  obtain ⟨stores, rfl⟩ := stores
  obtain ⟨loads, same⟩ := loads
  have stored (before : State) := execute_storeRegisters stores before
  have loaded (before : State) := execute_loadRegisters loads before
  rw [same] at loaded
  refine ⟨⟨_, stored state, fun registers => ⟨_, loaded _, ?_, ?_, rfl⟩⟩,
    ⟨_, loaded state, _, stored _, State.memory_storeUpTo_loadUpTo state _⟩, fun old => ?_⟩
  · intro k below
    rw [State.get_loadUpTo_storeUpTo, if_pos below]
  · intro k above
    rw [State.get_loadUpTo_storeUpTo, if_neg (Fin.not_le.mpr above)]
  · have moved := State.toNat_indexAfter state (Operand.x.registerIn store) old
    refine ⟨⟨_, stored state, moved, ?_⟩, _, loaded state, moved⟩
    rintro next y covers rfl
    exact ⟨_, execute_storeRegisters covers _, State.receives_storeUpTo_storeUpTo state _ _ old⟩

end Source

/-- Four registers stored from the last two cells on, with an index that wraps as well, and then one
more. -/
theorem register_transfers_undo_each_other_across_the_end :
    let registers := Vector.ofFn fun k : Fin 16 => if k = 3 then (7 : UInt8) else 9
    let state := { State.initial 0 ⟨false, true⟩ with index := 0xFFFE, registers }
    ∃ stored, execute state 0xF355 = .ok stored ∧ stored.index.toNat = 2 ∧
      (∃ loaded,
        execute { stored with registers := Vector.replicate 16 1, index := 0xFFFE } 0xF365 =
            .ok loaded ∧
          loaded.registers.get 3 = 7 ∧ loaded.registers.get 4 = 1) ∧
      ∃ after, execute stored 0xF055 = .ok after ∧ after.memory.read 0xFFE = 9 ∧
        after.memory.read 1 = 7 ∧ after.memory.read 2 = 9 := by
  intro registers state
  have stores : Operation.storeRegisters.Covers 0xF355 ∧ Operand.x.registerIn 0xF355 = 3 := by
    decide
  have loads : Operation.loadRegisters.Covers 0xF365 ∧ Operand.x.registerIn 0xF365 = 3 := by
    decide
  obtain ⟨⟨stored, ran, restores⟩, -, legacy⟩ :=
    register_transfers_undo_each_other stores loads state
  obtain ⟨⟨again, same, moved, follows⟩, -⟩ := legacy rfl
  obtain rfl : stored = again := Except.ok.inj (ran.symm.trans same)
  obtain ⟨loaded, reran, back, kept, -⟩ := restores (Vector.replicate 16 1)
  obtain ⟨after, next, block⟩ := follows 0xF055 0 (by decide) (by decide)
  refine ⟨stored, ran, moved.trans (by decide),
    ⟨loaded, reran, back 3 (by decide), kept 4 (by decide)⟩, after, next, ?_, ?_, ?_⟩
  · exact (after.memory.read_mod 0xFFFE).trans (block.inside 0 (by decide))
  · exact (after.memory.read_mod 0x10001).trans (block.inside 3 (by decide))
  · exact (after.memory.read_mod 0x10002).trans (block.inside 4 (by decide))

end Chip8
