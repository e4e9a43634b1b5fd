import Chip8.Proofs.InstructionFrame
import Chip8.Proofs.Interchange
import Chip8.Threefry

/-!
# Where dialects differ

The two choices of a dialect show in six operations only.  Transfers of registers move the index or
leave it, shifts read the second register or the first, and subtractions of equal values set the flag
or clear it.  Every other word comes to the same under all dialects, so two machines that differ in
their dialect alone stay that way for as long as they run into none of these.
-/

namespace Chip8

section Source

variable [RandomSource]

/-- The state under another dialect. -/
def State.withDialect (dialect : Dialect) (state : State) : State :=
  { state with dialect }

/-- A word comes to something else under the modern dialect than under the older one. -/
def ModernMatters (state : State) (word : Int) : Prop :=
  Operation.storeRegisters.Covers word ∨ Operation.loadRegisters.Covers word ∨
    ((Operation.combine .shiftRight).Covers word ∨ (Operation.combine .shiftLeft).Covers word) ∧
      state.register (Operand.x.registerIn word) ≠ state.register (Operand.y.registerIn word)

/-- A word comes to something else under strict subtractions than under the others. -/
def StrictMatters (state : State) (word : Int) : Prop :=
  ((Operation.combine .subtract).Covers word ∨ (Operation.combine .subtractFrom).Covers word) ∧
    state.register (Operand.x.registerIn word) = state.register (Operand.y.registerIn word) ∧
      Operand.x.registerIn word ≠ Instruction.flagRegister

/-- A word comes to something else under another dialect. -/
def DialectMatters (dialect : Dialect) (state : State) (word : Int) : Prop :=
  dialect.modern ≠ state.dialect.modern ∧ ModernMatters state word ∨
    dialect.strictBorrow ≠ state.dialect.strictBorrow ∧ StrictMatters state word

/-! ## Flags of subtractions -/

namespace Alu

/-- Whether an operation takes one operand from the other. -/
def isSubtraction : Alu → Bool
  | .subtract => true
  | .subtractFrom => true
  | _ => false

omit [RandomSource] in
theorem noBorrow_iff_of_ne {minuend subtrahend : Int} (apart : minuend ≠ subtrahend)
    (strict : Bool) : noBorrow strict minuend subtrahend ↔ subtrahend < minuend := by
  cases strict with
  | true => exact Iff.rfl
  | false =>
      change subtrahend ≤ minuend ↔ subtrahend < minuend
      omega

omit [RandomSource] in
/-- Strictness only shows where equal values are subtracted. -/
theorem apply_eq_of_ne {left right : Int} (apart : left ≠ right) (strict other : Bool)
    (operation : Alu) : operation.apply strict left right = operation.apply other left right := by
  cases operation with
  | subtract | subtractFrom =>
      simp only [apply, flag, noBorrow_iff_of_ne apart, noBorrow_iff_of_ne apart.symm]
  | _ => rfl

end Alu

/-! ## Words that come to the same -/

theorem Effect.commutes_withDialect (effect : Effect) (dialect : Dialect) :
    effect.Commutes (State.withDialect dialect) := by
  intro state
  cases effect <;> rfl

namespace Instruction

variable {state : State} {dialect : Dialect}

theorem commutes_of_effects_eq {instruction : Instruction}
    (same : instruction.effects (state.withDialect dialect) = instruction.effects state) :
    instruction.Commutes (State.withDialect dialect) state :=
  commutes_of_effects same fun _ _ effect _ => effect.commutes_withDialect dialect

theorem afterTransfer_withDialect (same : dialect.modern = state.dialect.modern) (x : Fin 16) :
    afterTransfer (state.withDialect dialect) x = afterTransfer state x := by
  simp only [afterTransfer, State.withDialect, same]

theorem leftOperand_withDialect {x y : Fin 16} (operation : Alu)
    (same : dialect.modern = state.dialect.modern ∨ state.register x = state.register y) :
    leftOperand (state.withDialect dialect) operation x y = leftOperand state operation x y := by
  rcases same with same | same
  · simp only [leftOperand, State.withDialect, same]
    rfl
  · have registers (k : Fin 16) : (state.withDialect dialect).register k = state.register k := rfl
    simp only [leftOperand, registers, same, ite_self]

/-- A value put into a register is lost when another is put there next. -/
theorem applyAll_overwritten (x : Fin 16) (lost kept : Int) :
    Effect.applyAll [.setRegister x lost, .setRegister x kept] state =
      Effect.applyAll [.setRegister x kept] state := by
  simp [Effect.apply, State.setRegister]

theorem combineEffects_withDialect {operation : Alu} {x y : Fin 16}
    (same : operation.apply dialect.strictBorrow
        (leftOperand (state.withDialect dialect) operation x y) (state.register y) =
      operation.apply state.dialect.strictBorrow (leftOperand state operation x y)
        (state.register y)) :
    (combine operation x y).effects (state.withDialect dialect) =
      (combine operation x y).effects state :=
  congrArg (fun outcome : Int × Option Int => Except.ok
    (outcome.2.toList.map (Effect.setRegister flagRegister) ++ [Effect.setRegister x outcome.1])) same

theorem commutes_combine {operation : Alu} {x y : Fin 16}
    (shifts : operation.isShift = true →
      dialect.modern = state.dialect.modern ∨ state.register x = state.register y)
    (subtracts : operation.isSubtraction = true →
      dialect.strictBorrow = state.dialect.strictBorrow ∨ state.register x ≠ state.register y ∨
        x = flagRegister) :
    (combine operation x y).Commutes (State.withDialect dialect) state := by
  cases operation with
  | shiftRight | shiftLeft =>
      refine commutes_of_effects_eq (combineEffects_withDialect ?_)
      rw [leftOperand_withDialect _ (shifts rfl)]
      rfl
  | subtract | subtractFrom =>
      rcases subtracts rfl with same | apart | rfl
      · refine commutes_of_effects_eq (combineEffects_withDialect ?_)
        rw [same]
        rfl
      · have apart : (state.register x : Int) ≠ state.register y := by omega
        exact commutes_of_effects_eq (combineEffects_withDialect (Alu.apply_eq_of_ne apart _ _ _))
      · -- The effects differ, but the result takes the place of the flag in which they do.
        change Except.ok (Effect.applyAll [.setRegister flagRegister _, .setRegister flagRegister _]
            (state.withDialect dialect)) =
          Except.ok (State.withDialect dialect
            (Effect.applyAll [.setRegister flagRegister _, .setRegister flagRegister _] state))
        rw [applyAll_overwritten, applyAll_overwritten]
        rfl
  | _ => exact commutes_of_effects_eq rfl

/-- A word that does not mind the dialect does the same before the dialect changes and after. -/
theorem commutes_withDialect {word : Int} {entry : Entry Operation} {mnemonic : String}
    {instruction : Instruction} (decodes : Decodes word entry mnemonic instruction)
    (apart : ¬DialectMatters dialect state word) :
    instruction.Commutes (State.withDialect dialect) state := by
  have modern (matters : ModernMatters state word) : dialect.modern = state.dialect.modern :=
    Classical.byContradiction fun differ => apart (.inl ⟨differ, matters⟩)
  have strict (matters : StrictMatters state word) :
      dialect.strictBorrow = state.dialect.strictBorrow :=
    Classical.byContradiction fun differ => apart (.inr ⟨differ, matters⟩)
  have own := decodes.eq_instructionIn
  cases instruction with
  | storeRegisters x =>
      refine commutes_of_effects_eq (congrArg Except.ok ?_)
      rw [storeEffects, afterTransfer_withDialect (modern (.inl decodes.covers))]
      rfl
  | loadRegisters x =>
      refine commutes_of_effects_eq (congrArg Except.ok ?_)
      rw [loadEffects, afterTransfer_withDialect (modern (.inr (.inl decodes.covers)))]
      rfl
  | combine operation x y =>
      obtain ⟨-, rfl, rfl⟩ := Instruction.combine.inj own
      refine commutes_combine (fun shifts => ?_) fun subtracts => ?_
      · refine Classical.or_iff_not_imp_right.mpr fun differ => modern (.inr (.inr ⟨?_, differ⟩))
        cases operation with
        | shiftRight => exact .inl decodes.covers
        | shiftLeft => exact .inr decodes.covers
        | _ => cases shifts
      · have covers : (Operation.combine .subtract).Covers word ∨
            (Operation.combine .subtractFrom).Covers word := by
          cases operation with
          | subtract => exact .inl decodes.covers
          | subtractFrom => exact .inr decodes.covers
          | _ => cases subtracts
        refine Classical.or_iff_not_imp_right.mpr fun both => strict ⟨covers, ?_⟩
        simpa only [not_or, Classical.not_not] using both
  | _ => exact commutes_of_effects_eq rfl

theorem waits_withDialect (instruction : Instruction) :
    instruction.waits (state.withDialect dialect) = instruction.waits state := by
  cases instruction <;> rfl

end Instruction

/-- A word comes to the same under another dialect unless the dialect matters to it. -/
theorem execute_withDialect {state : State} {dialect : Dialect} {word : Int}
    (apart : ¬DialectMatters dialect state word) :
    execute (state.withDialect dialect) word =
      (execute state word).map (State.withDialect dialect) := by
  rcases unknown_or_decodes word with unknown | ⟨entry, mnemonic, instruction, decodes⟩
  · rw [execute_of_unknown unknown, execute_of_unknown unknown]
    rfl
  · rw [execute_of_decodes decodes, execute_of_decodes decodes]
    exact Instruction.commutes_withDialect decodes apart

/-! ## Words that come to something else -/

omit [RandomSource] in
/-- Equal values leave nothing, and the flag tells whether the subtraction is strict. -/
theorem Alu.apply_self {operation : Alu} (subtracts : operation.isSubtraction = true)
    (strict : Bool) (value : Int) :
    operation.apply strict value value = (0, some (flag (strict = false))) := by
  cases operation with
  | subtract | subtractFrom => cases strict <;> simp [apply, flag, noBorrow]
  | _ => cases subtracts

namespace Instruction

variable {state : State}

theorem transfer_withDialect {x : Fin 16} {front : List Effect}
    (others : ∀ effect ∈ front, effect.component ≠ .index) (strict : Bool) :
    let before := state.withDialect ⟨true, strict⟩
    let oldBefore := state.withDialect ⟨false, strict⟩
    let modern := Effect.applyAll (front ++ afterTransfer before x) before
    let old := Effect.applyAll (front ++ afterTransfer oldBefore x) oldBefore
    modern.index = state.index ∧
      old.index.toNat = (state.index.toNat + x + 1) % 65536 ∧
      old = { modern with index := old.index, dialect := ⟨false, strict⟩ } := by
  intro before oldBefore modern old
  -- Both dialects move the same registers; the older one then adds a move of the index.
  have settled : modern = Effect.applyAll front before :=
    congrArg (Effect.applyAll · before) (List.append_nil front)
  refine ⟨?_, toNat_index_transfer others rfl, ?_⟩
  · rw [settled]
    exact Effect.kept_applyAll others before
  · have fronts : Effect.applyAll front oldBefore =
        (Effect.applyAll front before).withDialect ⟨false, strict⟩ :=
      Effect.applyAll_change (fun effect _ => effect.commutes_withDialect _) before
    have moved : old = Effect.applyAll (afterTransfer oldBefore x)
        (Effect.applyAll front oldBefore) :=
      Effect.applyAll_append front _ oldBefore
    rw [moved, fronts, settled]
    rfl

theorem register_combine {operation : Alu} {x y k : Fin 16} (other : k ≠ x)
    (unflagged : k ≠ flagRegister) (state : State) :
    (Effect.applyAll (combineEffects state operation x y) state).register k = state.register k := by
  have untouched : .register k ∉ (combine operation x y).targets state := by
    simp [targets, other, unflagged]
  have acts : (combine operation x y).effects state = .ok (combineEffects state operation x y) := rfl
  exact kept_of_not_mem_targets acts untouched

theorem shift_withDialect {operation : Alu} (shifts : operation.isShift = true) (x y : Fin 16)
    (strict : Bool) :
    ∃ modern old, (combine operation x y).execute (state.withDialect ⟨true, strict⟩) = .ok modern ∧
      (combine operation x y).execute (state.withDialect ⟨false, strict⟩) = .ok old ∧
      (∀ k, k ≠ x → k ≠ flagRegister → old.register k = modern.register k) ∧
      old = { modern with registers := old.registers, dialect := ⟨false, strict⟩ } := by
  let after (dialect : Dialect) : State :=
    Effect.applyAll (combineEffects (state.withDialect dialect) operation x y)
      (state.withDialect dialect)
  refine ⟨after ⟨true, strict⟩, after ⟨false, strict⟩, rfl, rfl, ?_, ?_⟩
  · intro k other unflagged
    have kept (dialect : Dialect) : (after dialect).register k = state.register k :=
      register_combine other unflagged (state.withDialect dialect)
    rw [kept, kept]
  · cases operation with
    | shiftRight | shiftLeft => rfl
    | _ => cases shifts

/-- Equal values leave zero in the first register, and the flag in its own. -/
theorem combineEffects_of_equal {operation : Alu} (subtracts : operation.isSubtraction = true)
    {x y : Fin 16} (same : state.register x = state.register y) (dialect : Dialect) :
    combineEffects (state.withDialect dialect) operation x y =
      [.setRegister flagRegister (Alu.flag (dialect.strictBorrow = false)), .setRegister x 0] := by
  have left : leftOperand (state.withDialect dialect) operation x y = state.register y := by
    cases operation with
    | subtract | subtractFrom => exact same
    | _ => cases subtracts
  have right : (state.withDialect dialect).register y = state.register y := rfl
  rw [combineEffects, left, right, Alu.apply_self subtracts]
  rfl

theorem subtraction_withDialect {operation : Alu} (subtracts : operation.isSubtraction = true)
    {x y : Fin 16} (same : state.register x = state.register y) (unflagged : x ≠ flagRegister)
    (modern : Bool) :
    ∃ strict lax, (combine operation x y).execute (state.withDialect ⟨modern, true⟩) = .ok strict ∧
      (combine operation x y).execute (state.withDialect ⟨modern, false⟩) = .ok lax ∧
      strict.register flagRegister = 0 ∧ lax.register flagRegister = 1 ∧
      lax = { strict with
        registers := strict.registers.set flagRegister 1, dialect := ⟨modern, false⟩ } := by
  have runs (dialect : Dialect) :
      (combine operation x y).execute (state.withDialect dialect) =
        .ok (Effect.applyAll
          [.setRegister flagRegister (Alu.flag (dialect.strictBorrow = false)), .setRegister x 0]
          (state.withDialect dialect)) :=
    congrArg (fun effects => Except.ok (Effect.applyAll effects (state.withDialect dialect)))
      (combineEffects_of_equal subtracts same dialect)
  have apart : x.val ≠ flagRegister.val := fun same => unflagged (Fin.ext same)
  have flagged (registers : Vector UInt8 16) (flag : UInt8) :
      ((registers.set flagRegister flag).set x 0)[flagRegister] = flag :=
    (Vector.getElem_set_ne x.isLt flagRegister.isLt apart).trans (Vector.getElem_set_self _)
  have swapped (registers : Vector UInt8 16) (flag other : UInt8) :
      (registers.set flagRegister flag).set x 0 =
        ((registers.set flagRegister other).set x 0).set flagRegister flag := by
    rw [Vector.set_comm _ _ apart, Vector.set_set]
  refine ⟨_, _, runs _, runs _, ?_, ?_, ?_⟩
  · exact congrArg UInt8.toNat (flagged state.registers 0)
  · exact congrArg UInt8.toNat (flagged state.registers 1)
  · exact congrArg (fun registers => { state with registers, dialect := ⟨modern, false⟩ })
      (swapped state.registers 1 0)

end Instruction

/-! ## Runs -/

theorem Command.onState_withDialect (command : Command) (dialect : Dialect) (state : State) :
    command.onState (state.withDialect dialect) =
      (command.onState state).map (State.withDialect dialect) := by
  cases command with
  | load rom =>
      simp only [onState, State.load]
      split <;> rfl
  | pressKey key | releaseKey key =>
      simp only [onState, State.setKey]
      split <;> rfl
  | _ => rfl

/-- A command runs no word to which another dialect matters. -/
def Machine.Spared (dialect : Dialect) (machine : Machine) (command : Command) : Prop :=
  command = .step → machine.pauses = false →
    ¬DialectMatters dialect machine.state machine.state.word

theorem Machine.lockstep_withDialect (dialect : Dialect) :
    Lockstep (fun left right => right = left.mapState (State.withDialect dialect)) id
      (Machine.Spared dialect) :=
  lockstep_mapState ⟨fun _ => rfl, fun _ => rfl, fun _ => rfl⟩
    (fun _ spared runs _ _ instruction decodes =>
      ⟨instruction.waits_withDialect, instruction.commutes_withDialect decodes (spared rfl runs)⟩)
    fun command state => command.onState_withDialect dialect state

/-! ## All of it -/

/-- What a word comes to under the older dialect against the modern one. -/
structure ModernIsolated (strict : Bool) (state : State) (word : Int) : Prop where
  /-- Most words come to the same. -/
  same : ¬ModernMatters state word →
    execute (state.withDialect ⟨false, strict⟩) word =
      (execute (state.withDialect ⟨true, strict⟩) word).map (State.withDialect ⟨false, strict⟩)
  /-- A transfer of registers moves the index in the older dialect only. -/
  transfer : Operation.storeRegisters.Covers word ∨ Operation.loadRegisters.Covers word →
    ∃ modern old, execute (state.withDialect ⟨true, strict⟩) word = .ok modern ∧
      execute (state.withDialect ⟨false, strict⟩) word = .ok old ∧
      modern.index = state.index ∧
      old.index.toNat = (state.index.toNat + Operand.x.registerIn word + 1) % 65536 ∧
      old = { modern with index := old.index, dialect := ⟨false, strict⟩ }
  /-- A shift leaves other values in the first register and the flag, if in anything. -/
  shift : (Operation.combine .shiftRight).Covers word ∨ (Operation.combine .shiftLeft).Covers word →
    ∃ modern old, execute (state.withDialect ⟨true, strict⟩) word = .ok modern ∧
      execute (state.withDialect ⟨false, strict⟩) word = .ok old ∧
      (∀ k, k ≠ Operand.x.registerIn word → k ≠ Instruction.flagRegister →
        old.register k = modern.register k) ∧
      old = { modern with registers := old.registers, dialect := ⟨false, strict⟩ }

/-- What a word comes to under lax subtractions against strict ones. -/
structure StrictIsolated (modern : Bool) (state : State) (word : Int) : Prop where
  /-- Most words come to the same. -/
  same : ¬StrictMatters state word →
    execute (state.withDialect ⟨modern, false⟩) word =
      (execute (state.withDialect ⟨modern, true⟩) word).map (State.withDialect ⟨modern, false⟩)
  /-- A subtraction of equal values clears the flag if strict and sets it otherwise. -/
  subtraction : StrictMatters state word →
    ∃ strict lax, execute (state.withDialect ⟨modern, true⟩) word = .ok strict ∧
      execute (state.withDialect ⟨modern, false⟩) word = .ok lax ∧
      strict.register Instruction.flagRegister = 0 ∧ lax.register Instruction.flagRegister = 1 ∧
      lax = { strict with
        registers := strict.registers.set Instruction.flagRegister 1,
        dialect := ⟨modern, false⟩ }

theorem modernIsolated (strict : Bool) (state : State) (word : Int) :
    ModernIsolated strict state word where
  same spared := by
    refine @execute_withDialect _ (state.withDialect ⟨true, strict⟩) ⟨false, strict⟩ word ?_
    rintro (⟨-, matters⟩ | ⟨differ, -⟩)
    · exact spared matters
    · exact differ rfl
  transfer := by
    rintro (covers | covers)
    · rw [covers.execute_eq (by decide), covers.execute_eq (by decide)]
      exact ⟨_, _, rfl, rfl, Instruction.transfer_withDialect (by simp [Effect.component]) strict⟩
    · rw [covers.execute_eq (by decide), covers.execute_eq (by decide)]
      exact ⟨_, _, rfl, rfl, Instruction.transfer_withDialect (by simp [Effect.component]) strict⟩
  shift := by
    rintro (covers | covers)
    · rw [covers.execute_eq (by decide), covers.execute_eq (by decide)]
      exact Instruction.shift_withDialect rfl _ _ strict
    · rw [covers.execute_eq (by decide), covers.execute_eq (by decide)]
      exact Instruction.shift_withDialect rfl _ _ strict

theorem strictIsolated (modern : Bool) (state : State) (word : Int) :
    StrictIsolated modern state word where
  same spared := by
    refine @execute_withDialect _ (state.withDialect ⟨modern, true⟩) ⟨modern, false⟩ word ?_
    rintro (⟨differ, -⟩ | ⟨-, matters⟩)
    · exact differ rfl
    · exact spared matters
  subtraction := by
    rintro ⟨covers | covers, same, unflagged⟩
    · rw [covers.execute_eq (by decide), covers.execute_eq (by decide)]
      exact Instruction.subtraction_withDialect rfl same unflagged modern
    · rw [covers.execute_eq (by decide), covers.execute_eq (by decide)]
      exact Instruction.subtraction_withDialect rfl same unflagged modern

namespace Machine

/-- Machines that differ in their dialect take the same turns, and come to machines that differ in it,
for as long as they run no word to which it matters. -/
theorem history_withDialect {machine : Machine} {dialect : Dialect} {commands : List Command}
    (spared : machine.Permits (Spared dialect) (machine.singles commands)) :
    (machine.mapState (State.withDialect dialect)).history commands = machine.history commands ∧
      ∀ done, done <+: commands →
        (machine.mapState (State.withDialect dialect)).after done =
          (machine.after done).mapState (State.withDialect dialect) := by
  have lockstep := lockstep_withDialect dialect
  constructor
  · have turns := (lockstep.run rfl spared).2
    rw [Turn.mapReport_id, List.map_id, List.map_id] at turns
    exact turns.symm
  · rintro done ⟨rest, rfl⟩
    exact (lockstep.run rfl (permits_singles_append spared).1).1

end Machine

/-- Words other than transfers of registers, shifts of unlike values and subtractions of equal ones
come to the same under all dialects, and these differ in the index, in the shifted register and the
flag, and in the flag.  Machines that differ in their dialect therefore take the same turns for as
long as they run none of those that their dialects differ on. -/
theorem dialects_isolated :
    (∀ strict state word, ModernIsolated strict state word) ∧
      (∀ modern state word, StrictIsolated modern state word) ∧
      ∀ (machine : Machine) (dialect : Dialect) (commands : List Command),
        machine.Permits (Machine.Spared dialect) (machine.singles commands) →
          (machine.mapState (State.withDialect dialect)).history commands =
              machine.history commands ∧
            ∀ done, done <+: commands →
              (machine.mapState (State.withDialect dialect)).after done =
                (machine.after done).mapState (State.withDialect dialect) :=
  ⟨modernIsolated, strictIsolated, fun _ _ _ => Machine.history_withDialect⟩

end Source

/-- A shift of equal values is the same step in both dialects, and a transfer from the last address
on moves the older index past the end. -/
theorem dialects_isolated_on_equal_shift :
    let start := Machine.create 0 ⟨true, true⟩
    let memory := Memory.blank.writeAll 0x200 [0x80, 0x16]
    let machine : Machine := { start with state := { start.state with memory, index := 0xFFFF } }
    let other := machine.mapState (State.withDialect ⟨false, false⟩)
    other.history [.step] = machine.history [.step] ∧
      other.after [.step] = (machine.after [.step]).mapState (State.withDialect ⟨false, false⟩) ∧
      ∃ modern old, execute (machine.state.withDialect ⟨true, true⟩) 0xF155 = .ok modern ∧
        execute (machine.state.withDialect ⟨false, true⟩) 0xF155 = .ok old ∧
        modern.index.toNat = 0xFFFF ∧ old.index.toNat = 1 := by
  intro start memory machine other
  have word : machine.state.word = 0x8016 := by decide +kernel
  have spared : machine.Permits (Machine.Spared ⟨false, false⟩) (machine.singles [.step]) := by
    intro done command early
    have no_more : done = [] := by
      simpa [Machine.singles, Machine.turns] using early.length_le
    subst no_more
    rintro rfl - matters
    change DialectMatters _ machine.state machine.state.word at matters
    rw [word] at matters
    rcases matters with ⟨-, covers | covers | ⟨-, differ⟩⟩ | ⟨-, covers | covers, -⟩
    · exact absurd covers (by decide)
    · exact absurd covers (by decide)
    · exact differ rfl
    · exact absurd covers (by decide)
    · exact absurd covers (by decide)
  obtain ⟨isolated, -, runs⟩ := dialects_isolated
  obtain ⟨same, reached⟩ := runs machine ⟨false, false⟩ [.step] spared
  obtain ⟨modern, old, modern_ran, old_ran, kept, moved, -⟩ :=
    (isolated true machine.state 0xF155).transfer (.inl (by decide))
  exact ⟨same, reached _ List.prefix_rfl, modern, old, modern_ran, old_ran,
    congrArg UInt16.toNat kept, moved.trans (by decide)⟩

end Chip8
