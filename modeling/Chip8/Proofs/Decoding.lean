import Chip8.InstructionSet
import Chip8.Proofs.Rendering
import Chip8.Proofs.Selection

/-!
# Decoded words

A decoded word has all four nibbles, so every operand is there to be read.  Whatever entry of the
instruction set is chosen for a word, the word can be described and read as an instruction by it;
the only way in which a word can fail to be decoded is that no entry agrees with it.
-/

namespace Chip8

/-! ## The digits of a word -/

/-- Joining the bits of two numbers adds them when the left is a multiple of a power of two and the
right is below that power. -/
theorem Bits.or_eq_add (bits : Nat) {weight high low : Int} (power : weight = (1 <<< bits : Nat))
    (high_nonneg : 0 ≤ high) (low_nonneg : 0 ≤ low) (fits : low < weight) :
    or (weight * high) low = weight * high + low := by
  rw [Nat.one_shiftLeft] at power
  subst power
  obtain ⟨high, rfl⟩ := Int.eq_ofNat_of_zero_le high_nonneg
  obtain ⟨low, rfl⟩ := Int.eq_ofNat_of_zero_le low_nonneg
  have joined := Nat.two_pow_add_eq_or_of_lt (by exact_mod_cast fits) high
  rw [← Int.natCast_mul, or_natCast, ← joined, Int.natCast_add]

namespace Opcode

theorem byte_decode (word : Int) : (decode word).byte = some (word % 256) := by
  have joined : Bits.or (16 * (word / 16 % 16)) (word % 16) = 16 * (word / 16 % 16) + word % 16 :=
    Bits.or_eq_add 4 rfl (by omega) (by omega) (by omega)
  have digits : 16 * (word / 16 % 16) + word % 16 = word % 256 := by omega
  exact congrArg some (joined.trans digits)

theorem address_decode (word : Int) : (decode word).address = some (word % 4096) := by
  have high : Bits.or (256 * (word / 256 % 16)) (16 * (word / 16 % 16)) =
      256 * (word / 256 % 16) + 16 * (word / 16 % 16) :=
    Bits.or_eq_add 8 rfl (by omega) (by omega) (by omega)
  have regrouped : 256 * (word / 256 % 16) + 16 * (word / 16 % 16) = 16 * (word / 16 % 256) := by
    omega
  have joined : Bits.or (16 * (word / 16 % 256)) (word % 16) =
      16 * (word / 16 % 256) + word % 16 :=
    Bits.or_eq_add 4 rfl (by omega) (by omega) (by omega)
  have digits : 16 * (word / 16 % 256) + word % 16 = word % 4096 := by omega
  change some (Bits.or (Bits.or (256 * (word / 256 % 16)) (16 * (word / 16 % 16))) (word % 16)) = _
  rw [high, regrouped, joined, digits]

theorem word_decode (word : Int) : (decode word).word = some (word % 65536) := by
  have joined : Bits.or (4096 * (word / 4096 % 16)) (word % 4096) =
      4096 * (word / 4096 % 16) + word % 4096 :=
    Bits.or_eq_add 12 rfl (by omega) (by omega) (by omega)
  have digits : 4096 * (word / 4096 % 16) + word % 4096 = word % 65536 := by omega
  have first : (decode word).first = some (word / 4096 % 16) := rfl
  simp only [Opcode.word, first, address_decode, Option.bind_eq_bind, Option.bind_some,
    Option.pure_def, joined, digits]

end Opcode

/-! ## Operands -/

namespace Operand

/-- The value of an operand in a word. -/
def valueIn (word : Int) : Operand → Int
  | .nnn => word % 4096
  | .nn => word % 256
  | .n => word % 16
  | .x => word / 256 % 16
  | .y => word / 16 % 16
  | .raw => word % 65536
  | .specificity => 4
  | .first => word / 4096 % 16
  | .second => word / 256 % 16
  | .third => word / 16 % 16
  | .fourth => word % 16

/-- The register that an operand of a word names. -/
def registerIn (word : Int) (operand : Operand) : Fin 16 :=
  Bits.lowNibble (operand.valueIn word)

theorem value?_decode (operand : Operand) (word : Int) :
    operand.value? (.decode word) = some (operand.valueIn word) := by
  cases operand with
  | nnn => exact Opcode.address_decode word
  | nn => exact Opcode.byte_decode word
  | raw => exact Opcode.word_decode word
  | _ => rfl

end Operand

theorem Opcode.require_decode (operand : Operand) (word : Int) :
    (decode word).require operand = .ok (operand.valueIn word) := by
  simp only [Opcode.require, operand.value?_decode]

/-- The condition that a test makes of a word. -/
def Test.conditionIn (word : Int) : Test → Condition
  | .byte => .equalsByte (Operand.x.registerIn word) (Operand.nn.valueIn word)
  | .register => .equalsRegister (Operand.x.registerIn word) (Operand.y.registerIn word)
  | .key => .keyDown (Operand.x.registerIn word)

namespace Operation

/-- The instruction that an operation makes of a word. -/
def instructionIn (word : Int) : Operation → Instruction
  | .clearScreen => .clearScreen
  | .ret => .ret
  | .machineCall => .machineCall (Operand.nnn.valueIn word) (Operand.raw.valueIn word)
  | .jump => .jump (Operand.nnn.valueIn word)
  | .call => .call (Operand.nnn.valueIn word)
  | .skip test wanted => .skip (test.conditionIn word) wanted
  | .load => .load (Operand.x.registerIn word) (Operand.nn.valueIn word)
  | .add => .add (Operand.x.registerIn word) (Operand.nn.valueIn word)
  | .combine operation =>
    .combine operation (Operand.x.registerIn word) (Operand.y.registerIn word)
  | .loadIndex => .loadIndex (Operand.nnn.valueIn word)
  | .jumpOffset => .jumpOffset (Operand.nnn.valueIn word)
  | .random => .random (Operand.x.registerIn word) (Operand.nn.valueIn word)
  | .draw =>
    .draw (Operand.x.registerIn word) (Operand.y.registerIn word) (Operand.n.valueIn word)
  | .readDelay => .readDelay (Operand.x.registerIn word)
  | .waitKey => .waitKey (Operand.x.registerIn word)
  | .writeDelay => .writeDelay (Operand.x.registerIn word)
  | .writeSound => .writeSound (Operand.x.registerIn word)
  | .addIndex => .addIndex (Operand.x.registerIn word)
  | .glyph => .glyph (Operand.x.registerIn word)
  | .decimal => .decimal (Operand.x.registerIn word)
  | .storeRegisters => .storeRegisters (Operand.x.registerIn word)
  | .loadRegisters => .loadRegisters (Operand.x.registerIn word)

theorem register_decode (operand : Operand) (word : Int) :
    register (.decode word) operand = .ok (operand.registerIn word) := by
  simp only [register, Opcode.require_decode, ok_bind]
  rfl

theorem condition_decode (test : Test) (word : Int) :
    condition (.decode word) test = .ok (test.conditionIn word) := by
  cases test <;> simp only [condition, register_decode, Opcode.require_decode, ok_bind] <;> rfl

/-- A refused machine call shows its own word: where the word is zero, so is its address. -/
theorem shownWord_decode (word : Int) :
    shownWord (.decode word) (Operand.nnn.valueIn word) = Operand.raw.valueIn word := by
  simp only [shownWord, Opcode.word_decode, Operand.valueIn]
  split
  · omega
  · rfl

/-- Every operation finds its operands in a decoded word. -/
theorem read_decode (operation : Operation) (word : Int) :
    operation.read (.decode word) = .ok (operation.instructionIn word) := by
  cases operation with
  | machineCall =>
      simp only [read, Opcode.require_decode, ok_bind, shownWord_decode]
      rfl
  | skip test wanted =>
      simp only [read, condition_decode, ok_bind]
      rfl
  | _ =>
      simp only [read, register_decode, Opcode.require_decode, ok_bind]
      rfl

end Operation

/-! ## The operation of an instruction -/

/-- The test that a condition makes. -/
def Condition.test : Condition → Test
  | .equalsByte _ _ => .byte
  | .equalsRegister _ _ => .register
  | .keyDown _ => .key

/-- An instruction without its operands. -/
def Instruction.operation : Instruction → Operation
  | .clearScreen => .clearScreen
  | .ret => .ret
  | .machineCall _ _ => .machineCall
  | .jump _ => .jump
  | .call _ => .call
  | .skip condition wanted => .skip condition.test wanted
  | .load _ _ => .load
  | .add _ _ => .add
  | .combine operation _ _ => .combine operation
  | .loadIndex _ => .loadIndex
  | .jumpOffset _ => .jumpOffset
  | .random _ _ => .random
  | .draw _ _ _ => .draw
  | .readDelay _ => .readDelay
  | .waitKey _ => .waitKey
  | .writeDelay _ => .writeDelay
  | .writeSound _ => .writeSound
  | .addIndex _ => .addIndex
  | .glyph _ => .glyph
  | .decimal _ => .decimal
  | .storeRegisters _ => .storeRegisters
  | .loadRegisters _ => .loadRegisters

theorem Operation.test_of_condition {opcode : Opcode} {test : Test} {result : Condition}
    (found : condition opcode test = .ok result) : result.test = test := by
  cases test <;>
    simp only [condition, bind_eq_ok] at found <;>
    obtain ⟨x, -, found⟩ := found
  · obtain ⟨value, -, found⟩ := found
    cases found
    rfl
  · obtain ⟨y, -, found⟩ := found
    cases found
    rfl
  · cases found
    rfl

/-- Reading an operation with an opcode gives an instruction of that operation. -/
theorem Operation.operation_of_read {operation : Operation} {opcode : Opcode}
    {instruction : Instruction} (readable : operation.read opcode = .ok instruction) :
    instruction.operation = operation := by
  cases operation with
  | skip test wanted =>
      simp only [read, bind_eq_ok] at readable
      obtain ⟨condition, found, readable⟩ := readable
      cases readable
      rw [Instruction.operation, test_of_condition found]
  | clearScreen | ret =>
      cases readable
      rfl
  | load | add | combine | random =>
      simp only [read, bind_eq_ok] at readable
      obtain ⟨x, -, second, -, readable⟩ := readable
      cases readable
      rfl
  | draw =>
      simp only [read, bind_eq_ok] at readable
      obtain ⟨x, -, y, -, height, -, readable⟩ := readable
      cases readable
      rfl
  | _ =>
      simp only [read, bind_eq_ok] at readable
      obtain ⟨operand, -, readable⟩ := readable
      cases readable
      rfl

/-! ## Entries -/

theorem Table.find_decode {Action : Type} (table : Table Action) (word : Int) :
    table.find (Opcode.decode word) = .ok (table.select (Opcode.decode word)) := by
  have inside : 0 ≤ word / 4096 % 16 ∧ word / 4096 % 16 < 16 := by omega
  simp [Table.find, Opcode.decode, inside]

/-- The text of a piece for a word; a field that names no operand has none. -/
def Segment.textIn (word : Int) : Segment → List Char
  | .literal character => [character]
  | .field name spec =>
    (Operand.ofName? name).elim [] fun operand =>
      (spec.getD ⟨0, 0, none⟩).layout.chars (operand.valueIn word)

/-- The text of a template for a word. -/
def Template.textIn (word : Int) (template : Template) : List Char :=
  template.segments.flatMap (Segment.textIn word)

/-- The text of a known piece for a word shows the values of operands in the word. -/
theorem Segment.showing_valueIn {segment : Segment} (known : segment.isKnown = true) (word : Int) :
    segment.showing (fun name => (Operand.ofName? name).elim 0 (Operand.valueIn word)) =
      segment.textIn word := by
  cases segment with
  | literal character => rfl
  | field name spec =>
      obtain ⟨operand, named⟩ := Option.isSome_iff_exists.mp known
      simp only [showing, textIn, named, Option.elim_some]

theorem Template.render_decode {template : Template}
    (known : ∀ segment ∈ template.segments, segment.isKnown = true) (word : Int) :
    template.render (Opcode.decode word) = .ok (String.ofList (template.textIn word)) := by
  have found : ∀ name ∈ template.fieldNames, (Opcode.decode word).operand name =
      .ok ((Operand.ofName? name).elim 0 (Operand.valueIn word)) := by
    intro name member
    obtain ⟨segment, among, own⟩ := List.mem_filterMap.mp member
    cases segment with
    | literal character => cases own
    | field other spec =>
        cases own
        obtain ⟨operand, named⟩ := Option.isSome_iff_exists.mp (known _ among)
        simp only [Opcode.operand, named, Opcode.require_decode, Option.elim_some]
  have shown := List.map_congr_left fun segment among =>
    Segment.showing_valueIn (known segment among) word
  rw [render_of_found found, textIn, List.flatMap_def, shown, List.flatMap_def]

theorem isKnown_of_mem_instructionSet :
    ∀ entry ∈ instructionSet.entries, ∀ segment ∈ entry.template.segments,
      segment.isKnown = true := by
  decide +kernel

/-- An entry that agrees with a word gives it a mnemonic. -/
theorem Entry.describe_decode {entry : Entry Operation} {word : Int}
    (member : entry ∈ instructionSet.entries)
    (agrees : entry.pattern.agrees (Opcode.decode word) = true) :
    entry.describe (Opcode.decode word) = .ok (String.ofList (entry.template.textIn word)) := by
  have rendered := Template.render_decode (isKnown_of_mem_instructionSet entry member) word
  simp only [Entry.describe, Entry.check, agrees, if_true, ok_bind, rendered]

/-! ## Decoding a word -/

/-- Only the lowest sixteen bits of a word are decoded. -/
theorem Opcode.decode_emod (word : Int) : decode (word % 65536) = decode word := by
  have first : word % 65536 / 4096 % 16 = word / 4096 % 16 := by omega
  have second : word % 65536 / 256 % 16 = word / 256 % 16 := by omega
  have third : word % 65536 / 16 % 16 = word / 16 % 16 := by omega
  have fourth : word % 65536 % 16 = word % 16 := by omega
  simp only [decode, first, second, third, fourth]

/-- A word is run by an entry under a mnemonic as an instruction. -/
structure Decodes (word : Int) (entry : Entry Operation) (mnemonic : String)
    (instruction : Instruction) : Prop where
  /-- The entry is the one chosen for the word. -/
  chosen : instructionSet.select (Opcode.decode word) = some entry
  /-- The mnemonic is the one that the entry gives the word. -/
  described : entry.describe (Opcode.decode word) = .ok mnemonic
  /-- The instruction is the entry's operation on the operands of the word. -/
  readable : entry.action.read (Opcode.decode word) = .ok instruction

/-- A word is decoded unless no entry agrees with it. -/
theorem unknown_or_decodes (word : Int) :
    instructionSet.select (Opcode.decode word) = none ∨
      ∃ entry mnemonic instruction, Decodes word entry mnemonic instruction := by
  cases chosen : instructionSet.select (Opcode.decode word) with
  | none => exact .inl rfl
  | some entry =>
      obtain ⟨member, agrees⟩ := Table.mem_of_select chosen
      exact .inr ⟨entry, _, _, chosen, Entry.describe_decode member agrees,
        entry.action.read_decode word⟩

namespace Decodes

variable {word : Int} {entry : Entry Operation} {mnemonic : String} {instruction : Instruction}

theorem member (decodes : Decodes word entry mnemonic instruction) :
    entry ∈ instructionSet.entries :=
  (Table.mem_of_select decodes.chosen).1

theorem agrees (decodes : Decodes word entry mnemonic instruction) :
    entry.pattern.agrees (Opcode.decode word) = true :=
  (Table.mem_of_select decodes.chosen).2

/-- The mnemonic is the text of the template of the entry for the word. -/
theorem mnemonic_eq (decodes : Decodes word entry mnemonic instruction) :
    mnemonic = String.ofList (entry.template.textIn word) := by
  have described := decodes.described
  rw [Entry.describe_decode decodes.member decodes.agrees] at described
  exact (Except.ok.inj described).symm

theorem action (decodes : Decodes word entry mnemonic instruction) :
    entry.action = instruction.operation :=
  (Operation.operation_of_read decodes.readable).symm

/-- The instruction is what the operation of the entry makes of the word. -/
theorem instruction_eq (decodes : Decodes word entry mnemonic instruction) :
    instruction = entry.action.instructionIn word := by
  have readable := decodes.readable
  rw [Operation.read_decode] at readable
  exact (Except.ok.inj readable).symm

theorem eq_instructionIn (decodes : Decodes word entry mnemonic instruction) :
    instruction = instruction.operation.instructionIn word :=
  decodes.instruction_eq.trans (congrArg (Operation.instructionIn word) decodes.action)

/-- Running the entry of a decoded word runs its instruction. -/
theorem execute_eq [RandomSource] (decodes : Decodes word entry mnemonic instruction)
    (state : State) :
    entry.execute (Opcode.decode word) state = instruction.execute state := by
  simp only [Entry.execute, Entry.check, decodes.agrees, if_true, ok_bind, decodes.readable]

end Decodes
end Chip8
