import Chip8.Proofs.Effects
import Chip8.Proofs.Encoding
import Chip8.Threefry

/-!
# Operations on two registers

The result and the flag of an operation, read as numbers, account for the whole of what the
operation computes: a carry for what a sum has too much, a borrow for what a difference lacks, and a
shift for the bit that falls out.  The operands are read before anything is written, and the flag is
written before the result, so this holds whichever registers the operands are, and where the result
goes into the flag register it takes the place of the flag.
-/

namespace Chip8

namespace Alu

/-- What is left of one byte when another is taken from it, and a flag that tells whether nothing
was borrowed. -/
structure Difference (strict : Bool) (minuend subtrahend result flag : Nat) : Prop where
  wraps : (result : Int) = ((minuend : Int) - subtrahend) % 256
  no_borrow : flag = 1 ↔ if strict then subtrahend < minuend else subtrahend ≤ minuend
  /-- Unless the subtraction is strict, the flag accounts for what the result has too much. -/
  accounted : strict = false → (minuend : Int) - subtrahend = result - 256 * (1 - flag)

/-- The result and the flag, if any, that an operation has to yield for two bytes. -/
inductive Yields (dialect : Dialect) (left right : Nat) : Alu → Nat → Option Nat → Prop
  | set : Yields dialect left right .set right none
  | or : Yields dialect left right .or (left ||| right) none
  | and : Yields dialect left right .and (left &&& right) none
  | xor : Yields dialect left right .xor (left ^^^ right) none
  | add {result carry : Nat} (sum : 256 * carry + result = left + right) :
      Yields dialect left right .add result (some carry)
  | subtract {result flag : Nat}
      (difference : Difference dialect.strictBorrow left right result flag) :
      Yields dialect left right .subtract result (some flag)
  | subtractFrom {result flag : Nat}
      (difference : Difference dialect.strictBorrow right left result flag) :
      Yields dialect left right .subtractFrom result (some flag)
  | shiftRight {result lost : Nat}
      (half : 2 * result + lost = if dialect.modern then left else right) :
      Yields dialect left right .shiftRight result (some lost)
  | shiftLeft {result lost : Nat}
      (double : 256 * lost + result = 2 * if dialect.modern then left else right) :
      Yields dialect left right .shiftLeft result (some lost)

section Bytes

variable {left right : Nat} (left_lt : left < 256) (right_lt : right < 256)

include left_lt right_lt

theorem exists_difference (strict : Bool) :
    ∃ result bit : Nat, ((left : Int) - right) % 256 = result ∧
      flag (noBorrow strict left right) = bit ∧ result < 256 ∧ bit ≤ 1 ∧
      Difference strict left right result bit := by
  obtain ⟨result, same⟩ := Int.eq_ofNat_of_zero_le
    (Int.emod_nonneg ((left : Int) - right) (by decide : (256 : Int) ≠ 0))
  by_cases unborrowed : noBorrow strict left right
  · refine ⟨result, 1, same, if_pos unborrowed, by omega, by omega, same.symm, ?_, ?_⟩
    · cases strict <;> simpa [noBorrow] using unborrowed
    · rintro rfl
      have not_less : (right : Int) ≤ left := unborrowed
      omega
  · refine ⟨result, 0, same, if_neg unborrowed, by omega, by omega, same.symm, ?_, ?_⟩
    · cases strict <;> simpa [noBorrow] using unborrowed
    · rintro rfl
      have less : ¬(right : Int) ≤ left := unborrowed
      omega

/-- Applied to two bytes, an operation gives a byte and perhaps a bit, and these are the ones that
it has to yield. -/
theorem exists_yields (operation : Alu) (dialect : Dialect) :
    let operand := if operation.isShift && !dialect.modern then right else left
    ∃ (result : Nat) (flag : Option Nat),
      operation.apply dialect.strictBorrow operand right =
          ((result : Int), flag.map (Nat.cast : Nat → Int)) ∧
        result < 256 ∧ (∀ bit ∈ flag, bit ≤ 1) ∧
        operation.Yields dialect left right result flag := by
  intro operand
  have shifted_lt : operand < 256 := by
    simp only [operand]
    split <;> assumption
  have shifted (shifts : operation.isShift = true) :
      operand = if dialect.modern then left else right := by
    simp only [operand, shifts, Bool.true_and]
    cases dialect.modern <;> rfl
  cases operation with
  | set => exact ⟨right, none, rfl, right_lt, nofun, .set⟩
  | or =>
      have byte : left ||| right < 2 ^ 8 := Nat.or_lt_two_pow left_lt right_lt
      exact ⟨left ||| right, none, rfl, byte, nofun, .or⟩
  | and =>
      have byte : left &&& right < 2 ^ 8 := Nat.and_lt_two_pow left right_lt
      exact ⟨left &&& right, none, rfl, byte, nofun, .and⟩
  | xor =>
      have byte : left ^^^ right < 2 ^ 8 := Nat.xor_lt_two_pow left_lt right_lt
      exact ⟨left ^^^ right, none, rfl, byte, nofun, .xor⟩
  | add =>
      have carried : flag (255 < (left : Int) + right) = ((left + right) / 256 : Nat) := by
        rw [flag]
        split <;> omega
      refine ⟨(left + right) % 256, some ((left + right) / 256), ?_, by omega, ?_, .add (by omega)⟩
      · exact congrArg (fun bit => (_, some bit)) carried
      · simp only [Option.mem_some_iff, forall_eq']
        omega
  | subtract =>
      obtain ⟨result, bit, wraps, flagged, byte, le, difference⟩ :=
        exists_difference left_lt right_lt dialect.strictBorrow
      refine ⟨result, some bit, ?_, byte, by simpa using le, .subtract difference⟩
      rw [apply]
      exact congr (congrArg Prod.mk wraps) (congrArg some flagged)
  | subtractFrom =>
      obtain ⟨result, bit, wraps, flagged, byte, le, difference⟩ :=
        exists_difference right_lt left_lt dialect.strictBorrow
      refine ⟨result, some bit, ?_, byte, by simpa using le, .subtractFrom difference⟩
      exact congr (congrArg Prod.mk wraps) (congrArg some flagged)
  | shiftRight =>
      refine ⟨operand / 2, some (operand % 2), rfl, by omega, ?_, .shiftRight ?_⟩
      · simp only [Option.mem_some_iff, forall_eq']
        omega
      · rw [← shifted rfl]
        omega
  | shiftLeft =>
      refine ⟨2 * operand % 256, some (operand / 128 % 2), rfl, by omega, ?_, .shiftLeft ?_⟩
      · simp only [Option.mem_some_iff, forall_eq']
        omega
      · rw [← shifted rfl]
        omega

end Bytes

end Alu

section Source

variable [RandomSource]

/-- A register that is given a byte holds it, and the others hold what they held. -/
theorem Effect.register_setRegister {value : Nat} (byte : value < 256) (x k : Fin 16)
    (state : State) :
    (Effect.apply state (.setRegister x value)).register k =
      if k = x then value else state.register k := by
  have kept := toNat_ofInt_uint8 value
  by_cases same : k = x
  · subst same
    rw [if_pos rfl, State.register, Effect.apply, State.setRegister, Fin.getElem_fin,
      Vector.getElem_set_self]
    omega
  · have apart : x.val ≠ k.val := fun equal => same (Fin.ext equal.symm)
    rw [if_neg same]
    exact congrArg UInt8.toNat (Vector.getElem_set_ne x.isLt k.isLt apart)

namespace Instruction

variable (state : State) (operation : Alu) (x y : Fin 16)

/-- The result goes into the first register, and the flag into its own unless that is the first. -/
theorem register_applyAll_combineEffects {result : Nat} {flag : Option Nat}
    (outcome : operation.apply state.dialect.strictBorrow (leftOperand state operation x y)
      (state.register y) = ((result : Int), flag.map (Nat.cast : Nat → Int)))
    (byte : result < 256) (bit : ∀ bit ∈ flag, bit ≤ 1) (k : Fin 16) :
    (Effect.applyAll (combineEffects state operation x y) state).register k =
      if k = x then result
      else if k = flagRegister then flag.getD (state.register k) else state.register k := by
  rw [combineEffects, outcome]
  cases flag with
  | none =>
      change (Effect.apply state (.setRegister x result)).register k = _
      rw [Effect.register_setRegister byte]
      simp
  | some value =>
      have small : value < 256 := by
        have le := bit value rfl
        omega
      change (Effect.apply (Effect.apply state (.setRegister flagRegister value))
        (.setRegister x result)).register k = _
      rw [Effect.register_setRegister byte, Effect.register_setRegister small]
      rfl

theorem registers_applyAll_combineEffects :
    Effect.applyAll (combineEffects state operation x y) state =
      { state with
        registers := (Effect.applyAll (combineEffects state operation x y) state).registers } := by
  rw [combineEffects]
  rcases operation.apply state.dialect.strictBorrow (leftOperand state operation x y)
    (state.register y) with ⟨result, _ | flag⟩ <;> rfl

end Instruction

/-- A word that combines two registers gives the first of them the result that its operation has to
yield for the values that the two held before, and then the flag register, unless it is the first
itself, the flag if the operation has one.  It changes nothing else. -/
theorem register_operations_exact {operation : Alu} {word : Int}
    (covers : (Operation.combine operation).Covers word) (state : State) :
    let x := Operand.x.registerIn word
    let y := Operand.y.registerIn word
    ∃ after result flag, execute state word = .ok after ∧
      operation.Yields state.dialect (state.register x) (state.register y) result flag ∧
      result < 256 ∧ (∀ bit ∈ flag, bit ≤ 1) ∧
      (∀ k : Fin 16, after.register k =
        if k = x then result
        else if k = Instruction.flagRegister then flag.getD (state.register k)
        else state.register k) ∧
      after = { state with registers := after.registers } := by
  intro x y
  obtain ⟨result, flag, outcome, byte, bit, yields⟩ :=
    Alu.exists_yields (state.registers[x]).toNat_lt (state.registers[y]).toNat_lt operation
      state.dialect
  refine ⟨_, result, flag, covers.execute_eq (by simp) state, yields, byte, bit, ?_, ?_⟩
  · exact Instruction.register_applyAll_combineEffects state operation x y outcome byte bit
  · exact Instruction.registers_applyAll_combineEffects state operation x y

end Source

/-- The older reading halves the flag register into itself: the bit that falls out of the odd byte
gives way to the half. -/
theorem register_operations_exact_in_the_flag_register :
    let state := (State.initial 0 ⟨false, true⟩).setRegister 15 201
    (Operation.combine .shiftRight).Covers 0x8FF6 ∧
      ∃ after, execute state 0x8FF6 = .ok after ∧
        after.register 15 = 100 ∧ after.register 0 = 0 := by
  intro state
  have covers : (Operation.combine .shiftRight).Covers 0x8FF6 := by decide
  obtain ⟨after, result, flag, ran, yields, -, bit, holds, -⟩ :=
    register_operations_exact covers state
  have before : state.register 15 = 201 := by decide +kernel
  refine ⟨covers, after, ran, ?_, ?_⟩
  · have halved : result = 100 := by
      cases yields with
      | @shiftRight _ lost half =>
          change 2 * result + lost = state.register 15 at half
          have le := bit lost rfl
          omega
    rw [holds 15, if_pos (by decide +kernel), halved]
  · rw [holds 0, if_neg (by decide +kernel), if_neg (by decide +kernel)]
    decide +kernel

end Chip8
