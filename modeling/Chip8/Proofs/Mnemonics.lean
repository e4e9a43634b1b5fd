import Chip8.Proofs.DeclarationOrder
import Chip8.Proofs.Numerals
import Chip8.Threefry

/-!
# What a mnemonic tells

The templates of two instructions have pieces of the same widths side by side until they come to two
different characters, so no text is a mnemonic of both.  The fields of one template can be read back
from the text, and they and the digits of the pattern are all the digits of the word, except that
the mnemonic of a shift leaves out the second register.  In the modern dialect a shift does not use
that register, so there a mnemonic also tells what its word does.
-/

namespace Chip8

/-! ## Pieces of a fixed width -/

namespace Operand

/-- The values of an operand in words lie below this number. -/
def bound : Operand → Nat
  | .nnn => 4096
  | .nn => 256
  | .raw => 65536
  | .specificity => 5
  | _ => 16

theorem valueIn_bounds (operand : Operand) (word : Int) :
    0 ≤ operand.valueIn word ∧ operand.valueIn word < operand.bound := by
  cases operand <;> simp only [valueIn, bound] <;> omega

end Operand

namespace Segment

/-- The number of characters that a piece takes, if it is the same for all words. -/
def width? : Segment → Option Nat
  | .literal _ => some 1
  | .field name spec =>
    (Operand.ofName? name).bind fun operand =>
      let layout := (spec.getD ⟨0, 0, none⟩).layout
      let width := max layout.width 1
      if operand.bound ≤ layout.style.base ^ width then some width else none

theorem length_textIn {segment : Segment} {width : Nat} (fixed : segment.width? = some width)
    (word : Int) : (segment.textIn word).length = width := by
  cases segment with
  | literal character =>
      cases fixed
      rfl
  | field name spec =>
      simp only [width?, Option.bind_eq_some_iff] at fixed
      obtain ⟨operand, named, fixed⟩ := fixed
      split at fixed
      · rename_i fits
        cases fixed
        have bounds := operand.valueIn_bounds word
        rw [textIn, named, Option.elim_some]
        exact Numeral.Layout.length_chars_of_lt _ bounds.1 (by omega)
      · cases fixed

/-- The operand of a piece can be read back from its text. -/
theorem valueIn_eq_of_textIn_eq {segment : Segment} {operand : Operand} {word other : Int}
    (named : segment.operand? = some operand) (same : segment.textIn word = segment.textIn other) :
    operand.valueIn word = operand.valueIn other := by
  cases segment with
  | literal character => cases named
  | field name spec =>
      rw [operand?] at named
      simp only [textIn, named, Option.elim_some] at same
      exact Numeral.Layout.chars_injective _ same

/-! ## Texts that differ -/

/-- Pieces of the same widths stand side by side in two lists, up to two characters that differ. -/
def apart : List Segment → List Segment → Bool
  | .literal character :: left, .literal other :: right => character != other || apart left right
  | first :: left, second :: right =>
    first.width?.isSome && first.width? == second.width? && apart left right
  | _, _ => false

theorem flatMap_textIn_ne_of_apart {left right : List Segment} (differ : apart left right = true)
    (word other : Int) : left.flatMap (textIn word) ≠ right.flatMap (textIn other) := by
  fun_induction apart left right with
  | case1 character left otherCharacter right ih =>
      intro same
      obtain ⟨first, rest⟩ := List.cons.inj same
      simp only [first, bne_self_eq_false, Bool.false_or] at differ
      exact ih differ rest
  | case2 first left second right _ ih =>
      intro same
      simp only [Bool.and_eq_true, beq_iff_eq] at differ
      obtain ⟨⟨fixed, equal⟩, differ⟩ := differ
      obtain ⟨width, fixed⟩ := Option.isSome_iff_exists.mp fixed
      have lengths : (first.textIn word).length = (second.textIn other).length := by
        rw [length_textIn fixed, length_textIn (equal ▸ fixed)]
      rw [List.flatMap_cons, List.flatMap_cons] at same
      -- Whatever the two pieces say, the texts behind them begin at the same place.
      exact ih differ (List.append_inj_right same lengths)
  | case3 => cases differ

/-! ## Fields read back -/

/-- Every piece but the last takes the same number of characters for all words. -/
def separable : List Segment → Bool
  | [] => true
  | [_] => true
  | segment :: others => segment.width?.isSome && separable others

theorem textIn_eq_of_flatMap_eq {segments : List Segment} {word other : Int}
    (separated : separable segments = true)
    (same : segments.flatMap (textIn word) = segments.flatMap (textIn other)) :
    ∀ segment ∈ segments, segment.textIn word = segment.textIn other := by
  fun_induction separable segments with
  | case1 => simp
  | case2 segment => simpa using same
  | case3 segment others _ ih =>
      simp only [Bool.and_eq_true] at separated
      obtain ⟨width, fixed⟩ := Option.isSome_iff_exists.mp separated.1
      have lengths : (segment.textIn word).length = (segment.textIn other).length := by
        rw [length_textIn fixed, length_textIn fixed]
      rw [List.flatMap_cons, List.flatMap_cons] at same
      obtain ⟨first, rest⟩ := List.append_inj same lengths
      intro member among
      rcases List.mem_cons.mp among with rfl | later
      · exact first
      · exact ih separated.2 rest member later

end Segment

theorem Template.valueIn_eq_of_textIn_eq {template : Template} {word other : Int}
    (separated : Segment.separable template.segments = true)
    (same : template.textIn word = template.textIn other) :
    ∀ operand ∈ template.operands, operand.valueIn word = operand.valueIn other := by
  intro operand member
  obtain ⟨segment, among, named⟩ := List.mem_filterMap.mp member
  exact Segment.valueIn_eq_of_textIn_eq named
    (Segment.textIn_eq_of_flatMap_eq separated same segment among)

/-! ## The digits of a word -/

/-- The places of the digits of an operand, counted from the highest one. -/
def Operand.places : Operand → List Nat
  | .nnn => [1, 2, 3]
  | .nn => [2, 3]
  | .n => [3]
  | .x => [1]
  | .y => [2]
  | .raw => [0, 1, 2, 3]
  | .specificity => []
  | .first => [0]
  | .second => [1]
  | .third => [2]
  | .fourth => [3]

namespace Opcode

theorem nibble_decode_of_valueIn_eq {operand : Operand} {word other : Int}
    (same : operand.valueIn word = operand.valueIn other) :
    ∀ place : Fin 4, place.val ∈ operand.places →
      (decode word).nibble place = (decode other).nibble place := by
  intro place inside
  fin_cases place <;> cases operand <;> simp [Operand.places] at inside <;>
    simp only [Operand.valueIn, nibble, decode, Option.some.injEq] at same ⊢ <;> omega

theorem nibble_decode_of_agrees {pattern : Opcode} {word value : Int} {place : Fin 4}
    (agrees : pattern.agrees (decode word) = true) (present : pattern.nibble place = some value) :
    (decode word).nibble place = some value := by
  obtain ⟨digits, decoded⟩ := exists_ofDigits_eq_decode word
  rw [← decoded] at agrees ⊢
  rw [nibble_ofDigits, mem_language.mp agrees place value present]

/-- A word is made up of its four digits. -/
theorem emod_eq_of_nibble_eq {word other : Int}
    (same : ∀ place, (decode word).nibble place = (decode other).nibble place) :
    word % 65536 = other % 65536 := by
  have first := Option.some.inj (same 0)
  have second := Option.some.inj (same 1)
  have third := Option.some.inj (same 2)
  have fourth := Option.some.inj (same 3)
  omega

end Opcode

/-! ## Mnemonics of the instruction set -/

theorem apart_of_mem_instructionSet :
    ∀ entry ∈ instructionSet.entries, ∀ other ∈ instructionSet.entries,
      entry.action = other.action ∨
        Segment.apart entry.template.segments other.template.segments = true := by
  decide +kernel

theorem separable_of_mem_instructionSet :
    ∀ entry ∈ instructionSet.entries, Segment.separable entry.template.segments = true := by
  decide +kernel

/-- Each digit of a word is in the pattern or in a field, but for the third of a shift. -/
theorem told_of_mem_instructionSet :
    ∀ entry ∈ instructionSet.entries,
      (entry.action = .combine .shiftRight ∨ entry.action = .combine .shiftLeft) ∧
          .x ∈ entry.template.operands ∨
        ∀ place, (entry.pattern.nibble place).isSome = true ∨
          ∃ operand ∈ entry.template.operands, place.val ∈ operand.places := by
  decide +kernel

/-- Two words shift the same register in the same direction, whatever their second registers. -/
def ShiftAlike (word other : Int) : Prop :=
  ∃ shift : Alu, shift.isShift = true ∧ (Operation.combine shift).Covers word ∧
    (Operation.combine shift).Covers other ∧ Operand.x.valueIn word = Operand.x.valueIn other

section Words

variable {word other : Int} {entry chosen : Entry Operation} {mnemonic : String}
  {instruction read : Instruction}

theorem exists_decodes_of_describe (described : describe word = .ok mnemonic) :
    ∃ entry instruction, Decodes word entry mnemonic instruction := by
  rcases unknown_or_decodes word with unknown | ⟨entry, text, instruction, decodes⟩
  · rw [describe_of_unknown unknown] at described
    cases described
  · rw [describe_of_decodes decodes] at described
    cases described
    exact ⟨entry, instruction, decodes⟩

theorem Decodes.textIn_eq (left : Decodes word entry mnemonic instruction)
    (right : Decodes other chosen mnemonic read) :
    entry.template.textIn word = chosen.template.textIn other :=
  String.ofList_injective (left.mnemonic_eq.symm.trans right.mnemonic_eq)

/-- A text is a mnemonic of one instruction only. -/
theorem Decodes.entry_eq (left : Decodes word entry mnemonic instruction)
    (right : Decodes other chosen mnemonic read) : entry = chosen := by
  rcases apart_of_mem_instructionSet entry left.member chosen right.member with same | apart
  · exact eq_of_action_eq left.member right.member same
  · exact absurd (left.textIn_eq right) (Segment.flatMap_textIn_ne_of_apart apart word other)

/-- Words of one mnemonic are the same but for the second register of a shift. -/
theorem Decodes.emod_eq_or_shiftAlike (left : Decodes word entry mnemonic instruction)
    (right : Decodes other entry mnemonic read) :
    word % 65536 = other % 65536 ∨ ShiftAlike word other := by
  have fields := Template.valueIn_eq_of_textIn_eq
    (separable_of_mem_instructionSet entry left.member) (left.textIn_eq right)
  rcases told_of_mem_instructionSet entry left.member with ⟨shift, named⟩ | told
  · -- The third digit of a shift is told by nothing, but the first register is.
    have covers := left.covers
    have covers_other := right.covers
    rw [← left.action] at covers
    rw [← right.action] at covers_other
    rcases shift with shift | shift <;> rw [shift] at covers covers_other <;>
      exact .inr ⟨_, rfl, covers, covers_other, fields .x named⟩
  · refine .inl (Opcode.emod_eq_of_nibble_eq fun place => ?_)
    rcases told place with present | ⟨operand, named, inside⟩
    · obtain ⟨value, present⟩ := Option.isSome_iff_exists.mp present
      rw [Opcode.nibble_decode_of_agrees left.agrees present,
        Opcode.nibble_decode_of_agrees right.agrees present]
    · exact Opcode.nibble_decode_of_valueIn_eq (fields operand named) place inside

end Words

/-! ## What a mnemonic does -/

section Source

variable [RandomSource]

theorem execute_emod (state : State) (word : Int) :
    execute state (word % 65536) = execute state word := by
  rw [execute, Opcode.decode_emod, execute]

/-- In the modern dialect the second register of a shift does not matter. -/
theorem Instruction.combineEffects_of_isShift {state : State} {shift : Alu}
    (shifts : shift.isShift = true) (modern : state.dialect.modern = true) (x y z : Fin 16) :
    combineEffects state shift x y = combineEffects state shift x z := by
  have left (second : Fin 16) : leftOperand state shift x second = state.register x := by
    simp [leftOperand, shifts, modern]
  rw [combineEffects, combineEffects, left y, left z]
  cases shift with
  | shiftRight | shiftLeft => rfl
  | _ => cases shifts

theorem ShiftAlike.execute_eq {word other : Int} (alike : ShiftAlike word other) {state : State}
    (modern : state.dialect.modern = true) : execute state word = execute state other := by
  obtain ⟨shift, shifts, covers, covers_other, same⟩ := alike
  have same_register : Operand.x.registerIn word = Operand.x.registerIn other :=
    congrArg Bits.lowNibble same
  rw [covers.execute_eq (by simp), covers_other.execute_eq (by simp)]
  simp only [Operation.instructionIn, Instruction.execute, Instruction.effects, same_register]
  rw [Instruction.combineEffects_of_isShift shifts modern]

/-- Two words of one mnemonic are equal modulo `65536`, or they shift the same register in the same
direction and may differ in their second registers.  In the modern dialect they come to the same in
every state. -/
theorem mnemonic_tells_instruction {word other : Int} {mnemonic : String}
    (described : describe word = .ok mnemonic) (described_other : describe other = .ok mnemonic) :
    (word % 65536 = other % 65536 ∨ ShiftAlike word other) ∧
      ∀ state : State, state.dialect.modern = true →
        execute state word = execute state other := by
  obtain ⟨entry, instruction, decodes⟩ := exists_decodes_of_describe described
  obtain ⟨chosen, read, decodes_other⟩ := exists_decodes_of_describe described_other
  obtain rfl := decodes.entry_eq decodes_other
  have alike := decodes.emod_eq_or_shiftAlike decodes_other
  refine ⟨alike, fun state modern => ?_⟩
  rcases alike with same | shift
  · rw [← execute_emod state word, same, execute_emod]
  · exact shift.execute_eq modern

end Source

/-- Two words shift `V1` to the right, the second with more digits than a word has and another
second register: they are not equal, and halve the register alike. -/
theorem mnemonic_tells_instruction_of_shift :
    let state := (State.initial 0 ⟨true, false⟩).setRegister 1 7
    describe 0x8126 = .ok "SHR V1" ∧ describe 0x18136 = .ok "SHR V1" ∧
      ShiftAlike 0x8126 0x18136 ∧ execute state 0x8126 = execute state 0x18136 := by
  intro state
  have first : describe 0x8126 = .ok "SHR V1" := by decide +kernel
  have second : describe 0x18136 = .ok "SHR V1" := by decide +kernel
  obtain ⟨alike, runs⟩ := mnemonic_tells_instruction first second
  exact ⟨first, second, alike.resolve_left (by decide), runs state rfl⟩

end Chip8
