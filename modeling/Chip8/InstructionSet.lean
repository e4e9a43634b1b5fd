import Chip8.Operation
import Chip8.Table

/-!
# The instruction set

The table of the thirty-five instructions, and running and describing instruction words by it.
-/

namespace Chip8

open Template

/-- The instructions of the machine in order of declaration. -/
def instructionSet : Table Operation where
  entries :=
    [⟨"CLS", ⟨some 0x0, some 0x0, some 0xE, some 0x0⟩, ofText "CLS", .clearScreen⟩,
      ⟨"RET", ⟨some 0x0, some 0x0, some 0xE, some 0xE⟩, ofText "RET", .ret⟩,
      ⟨"SYS", ⟨some 0x0, none, none, none⟩, ofText "SYS 0x" ++ hexField 3 .nnn, .machineCall⟩,
      ⟨"JP", ⟨some 0x1, none, none, none⟩, ofText "JP 0x" ++ hexField 3 .nnn, .jump⟩,
      ⟨"CALL", ⟨some 0x2, none, none, none⟩, ofText "CALL 0x" ++ hexField 3 .nnn, .call⟩,
      ⟨"SE", ⟨some 0x3, none, none, none⟩,
        ofText "SE V" ++ digitField .x ++ ofText ", 0x" ++ hexField 2 .nn, .skip .byte true⟩,
      ⟨"SNE", ⟨some 0x4, none, none, none⟩,
        ofText "SNE V" ++ digitField .x ++ ofText ", 0x" ++ hexField 2 .nn, .skip .byte false⟩,
      ⟨"SE_REG", ⟨some 0x5, none, none, some 0x0⟩,
        ofText "SE V" ++ digitField .x ++ ofText ", V" ++ digitField .y, .skip .register true⟩,
      ⟨"LD", ⟨some 0x6, none, none, none⟩,
        ofText "LD V" ++ digitField .x ++ ofText ", 0x" ++ hexField 2 .nn, .load⟩,
      ⟨"ADD", ⟨some 0x7, none, none, none⟩,
        ofText "ADD V" ++ digitField .x ++ ofText ", 0x" ++ hexField 2 .nn, .add⟩,
      ⟨"LD_REG", ⟨some 0x8, none, none, some 0x0⟩,
        ofText "LD V" ++ digitField .x ++ ofText ", V" ++ digitField .y, .combine .set⟩,
      ⟨"OR", ⟨some 0x8, none, none, some 0x1⟩,
        ofText "OR V" ++ digitField .x ++ ofText ", V" ++ digitField .y, .combine .or⟩,
      ⟨"AND", ⟨some 0x8, none, none, some 0x2⟩,
        ofText "AND V" ++ digitField .x ++ ofText ", V" ++ digitField .y, .combine .and⟩,
      ⟨"XOR", ⟨some 0x8, none, none, some 0x3⟩,
        ofText "XOR V" ++ digitField .x ++ ofText ", V" ++ digitField .y, .combine .xor⟩,
      ⟨"ADD_REG", ⟨some 0x8, none, none, some 0x4⟩,
        ofText "ADD V" ++ digitField .x ++ ofText ", V" ++ digitField .y, .combine .add⟩,
      ⟨"SUB", ⟨some 0x8, none, none, some 0x5⟩,
        ofText "SUB V" ++ digitField .x ++ ofText ", V" ++ digitField .y, .combine .subtract⟩,
      ⟨"SHR", ⟨some 0x8, none, none, some 0x6⟩, ofText "SHR V" ++ digitField .x,
        .combine .shiftRight⟩,
      ⟨"SUBN", ⟨some 0x8, none, none, some 0x7⟩,
        ofText "SUBN V" ++ digitField .x ++ ofText ", V" ++ digitField .y,
        .combine .subtractFrom⟩,
      ⟨"SHL", ⟨some 0x8, none, none, some 0xE⟩, ofText "SHL V" ++ digitField .x,
        .combine .shiftLeft⟩,
      ⟨"SNE_REG", ⟨some 0x9, none, none, some 0x0⟩,
        ofText "SNE V" ++ digitField .x ++ ofText ", V" ++ digitField .y, .skip .register false⟩,
      ⟨"LD_I", ⟨some 0xA, none, none, none⟩, ofText "LD I, 0x" ++ hexField 3 .nnn, .loadIndex⟩,
      ⟨"JP_V0", ⟨some 0xB, none, none, none⟩, ofText "JP V0, 0x" ++ hexField 3 .nnn, .jumpOffset⟩,
      ⟨"RND", ⟨some 0xC, none, none, none⟩,
        ofText "RND V" ++ digitField .x ++ ofText ", 0x" ++ hexField 2 .nn, .random⟩,
      ⟨"DRW", ⟨some 0xD, none, none, none⟩,
        ofText "DRW V" ++ digitField .x ++ ofText ", V" ++ digitField .y ++ ofText ", " ++
          decimalField .n,
        .draw⟩,
      ⟨"SKP", ⟨some 0xE, none, some 0x9, some 0xE⟩, ofText "SKP V" ++ digitField .x,
        .skip .key true⟩,
      ⟨"SKNP", ⟨some 0xE, none, some 0xA, some 0x1⟩, ofText "SKNP V" ++ digitField .x,
        .skip .key false⟩,
      ⟨"LD_VX_DT", ⟨some 0xF, none, some 0x0, some 0x7⟩,
        ofText "LD V" ++ digitField .x ++ ofText ", DT", .readDelay⟩,
      ⟨"LD_VX_K", ⟨some 0xF, none, some 0x0, some 0xA⟩,
        ofText "LD V" ++ digitField .x ++ ofText ", K", .waitKey⟩,
      ⟨"LD_DT_VX", ⟨some 0xF, none, some 0x1, some 0x5⟩, ofText "LD DT, V" ++ digitField .x,
        .writeDelay⟩,
      ⟨"LD_ST_VX", ⟨some 0xF, none, some 0x1, some 0x8⟩, ofText "LD ST, V" ++ digitField .x,
        .writeSound⟩,
      ⟨"ADD_I", ⟨some 0xF, none, some 0x1, some 0xE⟩, ofText "ADD I, V" ++ digitField .x,
        .addIndex⟩,
      ⟨"LD_F", ⟨some 0xF, none, some 0x2, some 0x9⟩, ofText "LD F, V" ++ digitField .x, .glyph⟩,
      ⟨"LD_B", ⟨some 0xF, none, some 0x3, some 0x3⟩, ofText "LD B, V" ++ digitField .x, .decimal⟩,
      ⟨"LD_MEM_VX", ⟨some 0xF, none, some 0x5, some 0x5⟩, ofText "LD [I], V" ++ digitField .x,
        .storeRegisters⟩,
      ⟨"LD_VX_MEM", ⟨some 0xF, none, some 0x6, some 0x5⟩,
        ofText "LD V" ++ digitField .x ++ ofText ", [I]", .loadRegisters⟩]

variable [RandomSource]

namespace Entry

/-- The state after an opcode of this instruction. -/
def execute (entry : Entry Operation) (opcode : Opcode) (state : State) : Except Fault State := do
  entry.check .execute opcode
  let instruction ← entry.action.read opcode
  instruction.execute state

end Entry

/-- The state after the instruction of a word; the program counter is not advanced for it. -/
def execute (state : State) (word : Int) : Except Fault State := do
  let opcode := Opcode.decode word
  let entry ← instructionSet.lookup opcode
  entry.execute opcode state

/-- The mnemonic of a word. -/
def describe (word : Int) : Except Fault String :=
  instructionSet.describe (Opcode.decode word)

end Chip8
