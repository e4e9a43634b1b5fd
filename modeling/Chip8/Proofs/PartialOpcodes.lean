import Chip8.Proofs.DeclarationOrder
import Chip8.Proofs.Stepping
import Chip8.Threefry

/-!
# Opcodes that lack nibbles

An entry may be handed an opcode that lacks nibbles.  If an operand that its operation reads is made
of an absent nibble, it is refused for that.  Otherwise the absent nibbles have no say in the
outcome: it stays the same when they are filled in, whatever the digits, and that holds of the
refusals of the operation as well.  Nothing is missing from an opcode that has all four nibbles.
-/

namespace Chip8

/-! ## Outcomes that foretell others -/

/-- An outcome is the fault that an opcode lacks an operand. -/
def MissesOperand {Value : Type} (outcome : Except Fault Value) : Prop :=
  ∃ operand opcode, outcome = .error (.missingOperand operand opcode)

/-- An outcome foretells every other one if an operand is missing, and else only itself. -/
inductive Foretells {Value : Type} : Except Fault Value → Except Fault Value → Prop
  | missing (operand : String) (opcode : Opcode) (outcome : Except Fault Value) :
      Foretells (.error (.missingOperand operand opcode)) outcome
  | same (outcome : Except Fault Value) : Foretells outcome outcome

namespace Foretells

variable {Value Result : Type} {early late : Except Fault Value}

theorem bind {next later : Value → Except Fault Result} (first : Foretells early late)
    (rest : ∀ value, early = .ok value → Foretells (next value) (later value)) :
    Foretells (early >>= next) (late >>= later) := by
  cases first with
  | missing operand opcode => exact .missing operand opcode _
  | same =>
      cases early with
      | error fault => exact .same _
      | ok value => exact rest value rfl

theorem eq_of_found (foretells : Foretells early late) (found : ¬MissesOperand early) :
    late = early := by
  cases foretells with
  | missing operand opcode => exact absurd ⟨operand, opcode, rfl⟩ found
  | same => rfl

end Foretells

/-! ## Operands of opcodes with more nibbles -/

theorem Bits.zero_or (value : Int) : or 0 value = value := by
  cases value with
  | ofNat value => exact congrArg Int.ofNat (Nat.zero_or value)
  | negSucc value =>
      change Int.negSucc (value ^^^ (value &&& 0)) = _
      rw [Nat.and_zero, Nat.xor_zero]

namespace Opcode

variable {part whole : Opcode} {operand : Operand} {value : Int}

/-- An opcode has all the nibbles of another one, and perhaps more. -/
def Extends (whole part : Opcode) : Prop :=
  ∀ place value, part.nibble place = some value → whole.nibble place = some value

theorem ofDigits_extends {digits : Fin 4 → Fin 16} (fills : digits ∈ part.language) :
    (ofDigits digits).Extends part := by
  intro place value present
  rw [nibble_ofDigits, mem_language.mp fills place value present]

namespace Extends

theorem address_eq (extended : whole.Extends part) (found : part.address = some value) :
    whole.address = some value := by
  simp only [address, Option.bind_eq_bind, Option.bind_eq_some_iff] at found ⊢
  obtain ⟨second, at_second, third, at_third, fourth, at_fourth, joined⟩ := found
  exact ⟨second, extended 1 second at_second, third, extended 2 third at_third, fourth,
    extended 3 fourth at_fourth, joined⟩

theorem byte_eq (extended : whole.Extends part) (found : part.byte = some value) :
    whole.byte = some value := by
  simp only [byte, Option.bind_eq_bind, Option.bind_eq_some_iff] at found ⊢
  obtain ⟨third, at_third, fourth, at_fourth, joined⟩ := found
  exact ⟨third, extended 2 third at_third, fourth, extended 3 fourth at_fourth, joined⟩

theorem word_eq (extended : whole.Extends part) (found : part.word = some value) :
    whole.word = some value := by
  simp only [word, Option.bind_eq_bind, Option.bind_eq_some_iff] at found ⊢
  obtain ⟨first, at_first, address, at_address, joined⟩ := found
  exact ⟨first, extended 0 first at_first, address, extended.address_eq at_address, joined⟩

/-- An operand that is there stays what it is, unless it counts the nibbles. -/
theorem value?_eq (extended : whole.Extends part) (counts : operand ≠ .specificity)
    (found : operand.value? part = some value) : operand.value? whole = some value := by
  cases operand with
  | nnn => exact extended.address_eq found
  | nn => exact extended.byte_eq found
  | raw => exact extended.word_eq found
  | first => exact extended 0 value found
  | x | second => exact extended 1 value found
  | y | third => exact extended 2 value found
  | n | fourth => exact extended 3 value found
  | specificity => exact absurd rfl counts

theorem require_foretells (extended : whole.Extends part) (operand : Operand)
    (counts : operand ≠ .specificity) :
    Foretells (part.require operand) (whole.require operand) := by
  cases found : operand.value? part with
  | none =>
      simp only [require, found]
      exact .missing operand.name part _
  | some value =>
      simp only [require, found, extended.value?_eq counts found]
      exact .same _

end Extends

theorem value?_of_require (found : part.require operand = .ok value) :
    operand.value? part = some value := by
  rw [require] at found
  split at found
  · rename_i present
    rw [present, Except.ok.inj found]
  · cases found

end Opcode

/-! ## Operations -/

namespace Operation

variable {part whole : Opcode} {operation : Operation}

theorem register_foretells (extended : whole.Extends part) (operand : Operand)
    (counts : operand ≠ .specificity) :
    Foretells (register part operand) (register whole operand) :=
  (extended.require_foretells operand counts).bind fun _ _ => .same _

theorem condition_foretells (extended : whole.Extends part) (test : Test) :
    Foretells (condition part test) (condition whole test) := by
  have x := register_foretells extended .x (by decide)
  have y := register_foretells extended .y (by decide)
  have nn := extended.require_foretells .nn (by decide)
  cases test with
  | byte => exact x.bind fun _ _ => nn.bind fun _ _ => .same _
  | register => exact x.bind fun _ _ => y.bind fun _ _ => .same _
  | key => exact x.bind fun _ _ => .same _

/-- A refused machine call shows its address, with or without the class nibble, which is zero. -/
theorem shownWord_eq {opcode : Opcode} {address : Int}
    (agrees : machineCall.pattern.agrees opcode = true) (found : opcode.address = some address) :
    shownWord opcode address = address := by
  cases first : opcode.first with
  | none =>
      have unknown : opcode.word = none := by
        simp [Opcode.word, first]
      rw [shownWord, unknown]
  | some class_nibble =>
      have zero : class_nibble = 0 := by
        simp only [Opcode.agrees, pattern, first, Opcode.nibbleAgrees, Bool.and_eq_true,
          beq_iff_eq] at agrees
        exact agrees.1.1.1.symm
      have known : opcode.word = some address := by
        simp [Opcode.word, first, found, zero, Bits.zero_or]
      simp only [shownWord, known, ite_self]

/-- An operation that finds its operands makes the same instruction of an opcode with more
nibbles. -/
theorem read_foretells (extended : whole.Extends part)
    (agrees : operation.pattern.agrees part = true)
    (agrees_whole : operation.pattern.agrees whole = true) :
    Foretells (operation.read part) (operation.read whole) := by
  have x := register_foretells extended .x (by decide)
  have y := register_foretells extended .y (by decide)
  have n := extended.require_foretells .n (by decide)
  have nn := extended.require_foretells .nn (by decide)
  have nnn := extended.require_foretells .nnn (by decide)
  cases operation with
  | clearScreen | ret => exact .same _
  | machineCall =>
      -- The word is read without being required, so it may be absent from the first opcode alone.
      refine nnn.bind fun address found => ?_
      have present := Opcode.value?_of_require found
      rw [shownWord_eq agrees present, shownWord_eq agrees_whole (extended.address_eq present)]
      exact .same _
  | skip test wanted =>
      exact (condition_foretells extended test).bind fun _ _ => .same _
  | jump | call | loadIndex | jumpOffset => exact nnn.bind fun _ _ => .same _
  | load | add | random => exact x.bind fun _ _ => nn.bind fun _ _ => .same _
  | combine operation => exact x.bind fun _ _ => y.bind fun _ _ => .same _
  | draw => exact x.bind fun _ _ => y.bind fun _ _ => n.bind fun _ _ => .same _
  | _ => exact x.bind fun _ _ => .same _

end Operation

/-! ## Entries -/

section Entries

variable [RandomSource] {entry : Entry Operation} {part whole : Opcode} {digits : Fin 4 → Fin 16}

theorem Entry.execute_foretells (member : entry ∈ instructionSet.entries)
    (extended : whole.Extends part) (agrees : entry.pattern.agrees part = true)
    (agrees_whole : entry.pattern.agrees whole = true) (state : State) :
    Foretells (entry.execute part state) (entry.execute whole state) := by
  have pattern := pattern_of_mem_instructionSet entry member
  have reads := Operation.read_foretells extended (pattern ▸ agrees) (pattern ▸ agrees_whole)
  simp only [Entry.execute, Entry.check, agrees, agrees_whole, if_true, ok_bind]
  exact reads.bind fun instruction _ => .same _

/-- Instructions that have their operands are not refused for want of one. -/
theorem Instruction.not_missesOperand_execute (instruction : Instruction) (state : State) :
    ¬MissesOperand (instruction.execute state) := by
  rintro ⟨operand, opcode, missing⟩
  cases acts : instruction.effects state with
  | ok effects =>
      rw [Instruction.execute, acts] at missing
      cases missing
  | error fault =>
      rw [Instruction.execute, acts] at missing
      rcases Instruction.effects_error acts with
        ⟨_, _, -, rfl⟩ | ⟨_, -, -, rfl⟩ | ⟨-, -, rfl⟩ <;> cases missing

theorem Entry.execute_ofDigits (agrees : digits ∈ entry.pattern.language) :
    ∃ instruction : Instruction, ∀ state : State,
      entry.execute (.ofDigits digits) state = instruction.execute state := by
  obtain ⟨word, decoded⟩ := Opcode.exists_decode_eq_ofDigits digits
  refine ⟨entry.action.instructionIn word, fun state => ?_⟩
  change entry.pattern.agrees (.ofDigits digits) = true at agrees
  rw [← decoded] at agrees ⊢
  simp only [Entry.execute, Entry.check, agrees, if_true, ok_bind, Operation.read_decode]

omit [RandomSource] in
theorem Entry.describe_ofDigits (member : entry ∈ instructionSet.entries)
    (agrees : digits ∈ entry.pattern.language) :
    ∃ mnemonic, entry.describe (.ofDigits digits) = .ok mnemonic := by
  obtain ⟨word, decoded⟩ := Opcode.exists_decode_eq_ofDigits digits
  change entry.pattern.agrees (.ofDigits digits) = true at agrees
  rw [← decoded] at agrees ⊢
  exact ⟨_, Entry.describe_decode member agrees⟩

/-- Unless an opcode that agrees with an entry misses an operand, the entry makes the same of every
full opcode of its own that has the nibbles given: it goes to the same state or refuses in the same
words.  A full opcode of the entry misses no operand, neither when it is run nor when it is
described. -/
theorem absent_nibbles_never_matter (member : entry ∈ instructionSet.entries) (state : State) :
    (∀ part : Opcode, entry.pattern.agrees part = true →
      ¬MissesOperand (entry.execute part state) →
      ∀ digits ∈ part.language, digits ∈ entry.pattern.language →
        entry.execute (.ofDigits digits) state = entry.execute part state) ∧
    ∀ digits ∈ entry.pattern.language,
      ¬MissesOperand (entry.execute (.ofDigits digits) state) ∧
        ∃ mnemonic, entry.describe (.ofDigits digits) = .ok mnemonic := by
  constructor
  · intro part agrees found digits fills inside
    have foretells := Entry.execute_foretells member (Opcode.ofDigits_extends fills) agrees inside
      state
    exact foretells.eq_of_found found
  · intro digits inside
    obtain ⟨instruction, executes⟩ := Entry.execute_ofDigits inside
    rw [executes]
    exact ⟨instruction.not_missesOperand_execute state, Entry.describe_ofDigits member inside⟩

end Entries

/-- A machine call without its class nibble is refused in the words of the full one. -/
theorem absent_nibbles_never_matter_in_a_machine_call :
    let part : Opcode := ⟨none, some 1, some 2, some 3⟩
    let digits : Fin 4 → Fin 16 := fun place => ⟨place.val, by omega⟩
    let state := State.initial 0 ⟨true, false⟩
    ∃ entry ∈ instructionSet.entries, entry.action = .machineCall ∧ digits ∈ part.language ∧
      entry.execute part state = .error (.notImplemented "SYS 0x123" 0x123) ∧
      entry.execute (.ofDigits digits) state = .error (.notImplemented "SYS 0x123" 0x123) ∧
      ∃ mnemonic, entry.describe (.ofDigits digits) = .ok mnemonic := by
  intro part digits state
  obtain ⟨entry, member, calls, agrees, inside, refused⟩ : ∃ entry ∈ instructionSet.entries,
      entry.action = .machineCall ∧ entry.pattern.agrees part = true ∧
        digits ∈ entry.pattern.language ∧
        entry.execute part state = .error (.notImplemented "SYS 0x123" 0x123) :=
    ⟨_, .tail _ (.tail _ (.head _)), rfl, rfl, rfl, rfl⟩
  obtain ⟨partly, fully⟩ := absent_nibbles_never_matter member state
  have found : ¬MissesOperand (entry.execute part state) := by
    rintro ⟨operand, opcode, missing⟩
    rw [refused] at missing
    cases missing
  refine ⟨entry, member, calls, rfl, refused, ?_, (fully digits inside).2⟩
  rw [partly part agrees found digits rfl inside, refused]

end Chip8
