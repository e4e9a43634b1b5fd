import Chip8.Disassembly
import Chip8.Proofs.Decoding

/-!
# The words of the operations

An operation has a pattern of digits, and covers the words that have these digits.  No word is
covered by two operations, except that the words for clearing the screen and for returning would
also be machine calls.  They are not, since the more specific pattern wins; so a word that another
operation covers is run by that operation on the operands in the word.
-/

namespace Chip8

/-! ## Patterns -/

namespace Operation

/-- The digits that the words of an operation have. -/
def pattern : Operation → Opcode
  | .clearScreen => ⟨some 0x0, some 0x0, some 0xE, some 0x0⟩
  | .ret => ⟨some 0x0, some 0x0, some 0xE, some 0xE⟩
  | .machineCall => ⟨some 0x0, none, none, none⟩
  | .jump => ⟨some 0x1, none, none, none⟩
  | .call => ⟨some 0x2, none, none, none⟩
  | .skip .byte true => ⟨some 0x3, none, none, none⟩
  | .skip .byte false => ⟨some 0x4, none, none, none⟩
  | .skip .register true => ⟨some 0x5, none, none, some 0x0⟩
  | .skip .register false => ⟨some 0x9, none, none, some 0x0⟩
  | .skip .key true => ⟨some 0xE, none, some 0x9, some 0xE⟩
  | .skip .key false => ⟨some 0xE, none, some 0xA, some 0x1⟩
  | .load => ⟨some 0x6, none, none, none⟩
  | .add => ⟨some 0x7, none, none, none⟩
  | .combine .set => ⟨some 0x8, none, none, some 0x0⟩
  | .combine .or => ⟨some 0x8, none, none, some 0x1⟩
  | .combine .and => ⟨some 0x8, none, none, some 0x2⟩
  | .combine .xor => ⟨some 0x8, none, none, some 0x3⟩
  | .combine .add => ⟨some 0x8, none, none, some 0x4⟩
  | .combine .subtract => ⟨some 0x8, none, none, some 0x5⟩
  | .combine .shiftRight => ⟨some 0x8, none, none, some 0x6⟩
  | .combine .subtractFrom => ⟨some 0x8, none, none, some 0x7⟩
  | .combine .shiftLeft => ⟨some 0x8, none, none, some 0xE⟩
  | .loadIndex => ⟨some 0xA, none, none, none⟩
  | .jumpOffset => ⟨some 0xB, none, none, none⟩
  | .random => ⟨some 0xC, none, none, none⟩
  | .draw => ⟨some 0xD, none, none, none⟩
  | .readDelay => ⟨some 0xF, none, some 0x0, some 0x7⟩
  | .waitKey => ⟨some 0xF, none, some 0x0, some 0xA⟩
  | .writeDelay => ⟨some 0xF, none, some 0x1, some 0x5⟩
  | .writeSound => ⟨some 0xF, none, some 0x1, some 0x8⟩
  | .addIndex => ⟨some 0xF, none, some 0x1, some 0xE⟩
  | .glyph => ⟨some 0xF, none, some 0x2, some 0x9⟩
  | .decimal => ⟨some 0xF, none, some 0x3, some 0x3⟩
  | .storeRegisters => ⟨some 0xF, none, some 0x5, some 0x5⟩
  | .loadRegisters => ⟨some 0xF, none, some 0x6, some 0x5⟩

/-- A word has the digits of an operation. -/
def Covers (operation : Operation) (word : Int) : Prop :=
  operation.pattern.agrees (.decode word) = true

instance (operation : Operation) (word : Int) : Decidable (operation.Covers word) :=
  inferInstanceAs (Decidable (operation.pattern.agrees (.decode word) = true))

end Operation

theorem pattern_of_mem_instructionSet :
    ∀ entry ∈ instructionSet.entries, entry.pattern = entry.action.pattern := by
  decide +kernel

theorem exists_mem_instructionSet (operation : Operation) :
    ∃ entry ∈ instructionSet.entries, entry.action = operation := by
  cases operation with
  | skip test wanted => cases test <;> cases wanted <;> decide +kernel
  | combine operation => cases operation <;> decide +kernel
  | _ => decide +kernel

/-! ## Patterns that meet -/

/-- Patterns that agree with one decoded word agree with each other. -/
theorem Opcode.agrees_of_decode {left right : Opcode} {word : Int}
    (left_agrees : left.agrees (decode word) = true)
    (right_agrees : right.agrees (decode word) = true) : left.agrees right = true := by
  have nibble {left right : Option Int} {digit : Int}
      (left_agrees : nibbleAgrees left (some digit) = true)
      (right_agrees : nibbleAgrees right (some digit) = true) :
      nibbleAgrees left right = true := by
    cases left with
    | none => rfl
    | some left =>
        cases right with
        | none => rfl
        | some right =>
            simp only [nibbleAgrees, beq_iff_eq] at left_agrees right_agrees ⊢
            rw [left_agrees, right_agrees]
  simp only [agrees, Bool.and_eq_true] at left_agrees right_agrees ⊢
  obtain ⟨⟨⟨first, second⟩, third⟩, fourth⟩ := left_agrees
  obtain ⟨⟨⟨first', second'⟩, third'⟩, fourth'⟩ := right_agrees
  exact ⟨⟨⟨nibble first first', nibble second second'⟩, nibble third third'⟩, nibble fourth fourth'⟩

/-- Entries whose patterns meet are the same, but for the less specific one of machine calls. -/
theorem meet_of_mem_instructionSet :
    ∀ entry ∈ instructionSet.entries, ∀ other ∈ instructionSet.entries,
      entry.pattern.agrees other.pattern = true →
        entry.action = other.action ∨ entry.action = .machineCall ∨
          other.action = .machineCall ∧ other.pattern.specificity < entry.pattern.specificity := by
  decide +kernel

/-! ## Words of an operation -/

/-- The entry chosen for a word that an operation covers is the entry of that operation. -/
theorem Operation.Covers.select {operation : Operation} {word : Int}
    (covers : operation.Covers word) (runs : operation ≠ .machineCall) :
    ∃ entry, instructionSet.select (.decode word) = some entry ∧ entry.action = operation := by
  obtain ⟨own, own_member, rfl⟩ := exists_mem_instructionSet operation
  rw [Covers, ← pattern_of_mem_instructionSet own own_member] at covers
  cases chosen : instructionSet.select (.decode word) with
  | none =>
      have disagrees := Table.agrees_of_select_eq_none chosen own own_member
      rw [covers] at disagrees
      cases disagrees
  | some entry =>
      obtain ⟨member, agrees⟩ := Table.mem_of_select chosen
      -- Both patterns agree with the word, and the chosen one is the most specific that does.
      have meets := Opcode.agrees_of_decode covers agrees
      have most := Table.specificity_le_of_select (rfl : (Opcode.decode word).first = some _)
        chosen own_member covers
      refine ⟨entry, rfl, ?_⟩
      rcases meet_of_mem_instructionSet own own_member entry member meets with
        same | refused | ⟨-, less⟩
      · exact same.symm
      · exact (runs refused).elim
      · omega

/-- A word that an operation covers is decoded as the instruction that the operation makes of it. -/
theorem Operation.Covers.decodes {operation : Operation} {word : Int}
    (covers : operation.Covers word) (runs : operation ≠ .machineCall) :
    ∃ entry mnemonic, Decodes word entry mnemonic (operation.instructionIn word) := by
  obtain ⟨chosen, select, action⟩ := covers.select runs
  rcases unknown_or_decodes word with unknown | ⟨entry, mnemonic, instruction, decodes⟩
  · rw [unknown] at select
    cases select
  · have same : entry = chosen := Option.some.inj (decodes.chosen.symm.trans select)
    subst same
    exact ⟨entry, mnemonic, action ▸ decodes.instruction_eq ▸ decodes⟩

namespace Decodes

variable {word : Int} {entry : Entry Operation} {mnemonic : String} {instruction : Instruction}

/-- A decoded word is covered by its operation. -/
theorem covers (decodes : Decodes word entry mnemonic instruction) :
    instruction.operation.Covers word := by
  rw [Operation.Covers, ← decodes.action, ← pattern_of_mem_instructionSet entry decodes.member]
  exact decodes.agrees

/-- A decoded word is run by the operation that covers it. -/
theorem operation_eq_iff (decodes : Decodes word entry mnemonic instruction)
    {operation : Operation} (runs : operation ≠ .machineCall) :
    instruction.operation = operation ↔ operation.Covers word := by
  constructor
  · rintro rfl
    exact decodes.covers
  · intro covers
    obtain ⟨chosen, select, action⟩ := covers.select runs
    have same : entry = chosen := Option.some.inj (decodes.chosen.symm.trans select)
    rw [← decodes.action, same, action]

end Decodes

/-! ## Calls and returns -/

/-- An operation with a digit for its class alone covers the words of that class. -/
theorem Operation.covers_iff_class {operation : Operation} {digit : Int}
    (only : operation.pattern = ⟨some digit, none, none, none⟩) (word : Int) :
    operation.Covers word ↔ word / 4096 % 16 = digit := by
  simp only [Covers, only, Opcode.agrees, Opcode.nibbleAgrees, Opcode.decode, Bool.and_true,
    beq_iff_eq]
  exact eq_comm

theorem Operation.covers_call_iff (word : Int) : call.Covers word ↔ word / 4096 % 16 = 2 :=
  covers_iff_class rfl word

theorem Operation.covers_ret_iff (word : Int) : ret.Covers word ↔ word % 65536 = 0x00EE := by
  simp only [Covers, pattern, Opcode.agrees, Opcode.nibbleAgrees, Opcode.decode, Bool.and_eq_true,
    beq_iff_eq]
  omega

/-! ## Running and describing a word -/

section Words

variable {word : Int} {entry : Entry Operation} {mnemonic : String} {instruction : Instruction}

theorem lookup_of_unknown (unknown : instructionSet.select (.decode word) = none) :
    instructionSet.lookup (.decode word) = .error (.invalidOpcode (some (word % 65536))) := by
  simp only [Table.lookup, Table.find_decode, unknown, ok_bind, Opcode.word_decode]
  rfl

theorem lookup_of_decodes (decodes : Decodes word entry mnemonic instruction) :
    instructionSet.lookup (.decode word) = .ok entry := by
  simp only [Table.lookup, Table.find_decode, decodes.chosen, ok_bind]
  rfl

theorem execute_of_unknown [RandomSource] (unknown : instructionSet.select (.decode word) = none)
    (state : State) : execute state word = .error (.invalidOpcode (some (word % 65536))) := by
  simp only [execute, lookup_of_unknown unknown, error_bind]

theorem execute_of_decodes [RandomSource] (decodes : Decodes word entry mnemonic instruction)
    (state : State) :
    execute state word = instruction.execute state := by
  simp only [execute, lookup_of_decodes decodes, ok_bind, decodes.execute_eq]

theorem describe_of_unknown (unknown : instructionSet.select (.decode word) = none) :
    describe word = .error (.invalidOpcode (some (word % 65536))) := by
  simp only [describe, Table.describe, lookup_of_unknown unknown, error_bind]

theorem describe_of_decodes (decodes : Decodes word entry mnemonic instruction) :
    describe word = .ok mnemonic := by
  simp only [describe, Table.describe, lookup_of_decodes decodes, ok_bind, decodes.described]

theorem describeWord_of_unknown (unknown : instructionSet.select (.decode word) = none) :
    describeWord word = ((Fault.invalidOpcode (some (word % 65536))).message, false) := by
  simp only [describeWord, describe_of_unknown unknown]

theorem describeWord_of_decodes (decodes : Decodes word entry mnemonic instruction) :
    describeWord word = (mnemonic, true) := by
  simp only [describeWord, describe_of_decodes decodes]

end Words

/-- A word that an operation covers does what the operation makes of it. -/
theorem Operation.Covers.execute_eq [RandomSource] {operation : Operation} {word : Int}
    (covers : operation.Covers word) (runs : operation ≠ .machineCall) (state : State) :
    execute state word = (operation.instructionIn word).execute state := by
  obtain ⟨entry, mnemonic, decodes⟩ := covers.decodes runs
  exact execute_of_decodes decodes state

/-- A word that runs has the effects that an operation makes of it. -/
theorem exists_effects_of_execute [RandomSource] {state after : State} {word : Int}
    (ran : execute state word = .ok after) :
    ∃ operation effects, Operation.Covers operation word ∧
      (operation.instructionIn word).effects state = .ok effects ∧
      after = Effect.applyAll effects state := by
  rcases unknown_or_decodes word with unknown | ⟨entry, mnemonic, instruction, decodes⟩
  · rw [execute_of_unknown unknown] at ran
    cases ran
  · rw [execute_of_decodes decodes, Instruction.execute, bind_eq_ok] at ran
    obtain ⟨effects, acts, applied⟩ := ran
    cases applied
    have instruction_eq := decodes.instruction_eq
    rw [decodes.action] at instruction_eq
    exact ⟨instruction.operation, effects, decodes.covers, instruction_eq ▸ acts, rfl⟩

end Chip8
