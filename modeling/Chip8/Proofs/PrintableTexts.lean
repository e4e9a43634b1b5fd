import Chip8.Text.Decimal
import Chip8.Proofs.Numerals
import Chip8.Proofs.Stepping

/-!
# Texts of printable characters

Numbers are written in printable characters, in every style and also where a double is no number.
So are the mnemonics of the instruction set and the faults that a step goes past.  As a line break is
not printable, none of these texts takes more than one line.  A message is put together from such
texts and literal ones, which are looked at letter by letter.
-/

namespace Chip8
namespace Printable

/-- Every character of a text is printable. -/
def IsPlain (text : List Char) : Prop :=
  ∀ character ∈ text, isPrintable character = true

instance (text : List Char) : Decidable (IsPlain text) :=
  List.decidableBAll (fun character => isPrintable character = true) text

@[simp]
theorem isPlain_append {left right : List Char} :
    IsPlain (left ++ right) ↔ IsPlain left ∧ IsPlain right :=
  List.forall_mem_append

theorem isPlain_replicate {character : Char} (printable : isPrintable character = true)
    (count : Nat) : IsPlain (List.replicate count character) := by
  intro member among
  rw [List.eq_of_mem_replicate among, printable]

theorem newline_not_mem_of_isPlain {text : List Char} (plain : IsPlain text) : '\n' ∉ text := by
  intro among
  have printable := plain '\n' among
  have unprintable : isPrintable '\n' = false := by decide
  rw [unprintable] at printable
  cases printable

/-! ## Numbers -/

section Numbers

open Numeral

theorem isPrintable_character (style : Style) :
    ∀ digit < style.base, isPrintable (style.character digit) = true := by
  cases style <;> decide

theorem isPlain_digits (style : Style) (value : Nat) : IsPlain (style.digits value) :=
  style.forall_mem_digits (isPrintable_character style) value

theorem isPlain_sign (value : Int) : IsPlain (sign value) := by
  unfold sign
  split <;> decide

theorem isPlain_chars (layout : Layout) (value : Int) : IsPlain (layout.chars value) := by
  have signed := isPlain_sign value
  have digits := isPlain_digits layout.style value.natAbs
  unfold Layout.chars
  dsimp only
  generalize layout.width - (sign value ++ layout.style.digits value.natAbs).length = missing
  split
  · have zeros : IsPlain (List.replicate missing '0') := isPlain_replicate (by decide) missing
    exact isPlain_append.mpr ⟨isPlain_append.mpr ⟨signed, zeros⟩, digits⟩
  · have blanks : IsPlain (List.replicate missing ' ') := isPlain_replicate (by decide) missing
    exact isPlain_append.mpr ⟨isPlain_append.mpr ⟨blanks, signed⟩, digits⟩

@[simp]
theorem isPlain_hex (width : Nat) (value : Int) : IsPlain (hex width value).toList := by
  rw [hex, String.toList_ofList]
  exact isPlain_chars _ value

@[simp]
theorem isPlain_decimal (value : Int) : IsPlain (decimal value).toList := by
  rw [decimal, String.toList_ofList]
  exact isPlain_append.mpr ⟨isPlain_sign value, isPlain_digits .decimal value.natAbs⟩

/-- Commas between printable digits are printable. -/
theorem isPlain_grouped {digits : List Char} (plain : IsPlain digits) :
    IsPlain (grouped digits) := by
  intro character among
  obtain ⟨⟨digit, position⟩, member, written⟩ := List.mem_flatMap.mp among
  have printable := plain digit (List.fst_mem_of_mem_zipIdx member)
  dsimp only at written
  split at written
  · rcases List.mem_cons.mp written with rfl | last
    · decide
    · rwa [List.mem_singleton.mp last]
  · rwa [List.mem_singleton.mp written]

theorem isPlain_whole (grouping : Decimal.Grouping) (whole : Nat) :
    IsPlain (grouping.digits whole) := by
  cases grouping with
  | plain => exact isPlain_digits .decimal whole
  | thousands => exact isPlain_grouped (isPlain_digits .decimal whole)

theorem isPlain_fractionDigits (places fraction : Nat) :
    IsPlain (Decimal.fractionDigits places fraction) := by
  unfold Decimal.fractionDigits
  split
  · decide
  · exact List.forall_mem_cons.mpr ⟨by decide, isPlain_chars _ fraction⟩

/-- Every double is written in printable characters. -/
@[simp]
theorem isPlain_fixed (grouping : Decimal.Grouping) (places : Nat) (number : Float) :
    IsPlain (Decimal.fixed grouping places number) := by
  have minus (negative : Bool) : IsPlain (if negative then ['-'] else []) := by
    cases negative <;> decide
  unfold Decimal.fixed
  cases Decimal.Value.ofFloat number with
  | notANumber =>
      have word : IsPlain ['n', 'a', 'n'] := by decide
      exact word
  | infinite negative => exact isPlain_append.mpr ⟨minus negative, by decide⟩
  | finite negative mantissa exponent =>
      exact isPlain_append.mpr ⟨isPlain_append.mpr ⟨minus negative, isPlain_whole grouping _⟩,
        isPlain_fractionDigits places _⟩

end Numbers

/-! ## Steps -/

theorem isPlain_literal_of_mem_instructionSet :
    ∀ entry ∈ instructionSet.entries, ∀ segment ∈ entry.template.segments,
      segment.name? = none → IsPlain (segment.textIn 0) := by
  decide +kernel

theorem isPlain_mnemonic {word : Int} {entry : Entry Operation} {mnemonic : String}
    {instruction : Instruction} (decodes : Decodes word entry mnemonic instruction) :
    IsPlain mnemonic.toList := by
  rw [decodes.mnemonic_eq, String.toList_ofList]
  intro character among
  obtain ⟨segment, member, written⟩ := List.mem_flatMap.mp among
  cases segment with
  | literal other =>
      exact isPlain_literal_of_mem_instructionSet entry decodes.member _ member rfl
        character written
  | field name spec =>
      rw [Segment.textIn] at written
      cases named : Operand.ofName? name with
      | none =>
          rw [named] at written
          cases written
      | some operand =>
          rw [named] at written
          exact isPlain_chars _ _ character written

theorem isPlain_invalidOpcode (word : Int) :
    IsPlain (Fault.invalidOpcode (some word)).message.toList := by
  have wording : (Fault.invalidOpcode (some word)).message =
      "Invalid opcode 0x" ++ Numeral.hex 4 word := rfl
  simp only [wording, String.toList_append, isPlain_append, isPlain_hex, and_true]
  decide

theorem isPlain_notImplemented {mnemonic : String} (plain : IsPlain mnemonic.toList) (word : Int) :
    IsPlain (Fault.notImplemented mnemonic word).message.toList := by
  have wording : (Fault.notImplemented mnemonic word).message =
      "Opcode not implemented: " ++ mnemonic ++ " (0x" ++ Numeral.hex 4 word ++ ")" := rfl
  simp only [wording, String.toList_append, isPlain_append, isPlain_hex, plain, and_true]
  decide

theorem isPlain_columns {mnemonic : String} (plain : IsPlain mnemonic.toList)
    (address word : Int) : IsPlain (Line.columns address word mnemonic).toList := by
  simp only [Line.columns, String.toList_append, isPlain_append, isPlain_hex, plain, and_true]
  decide

/-- The mnemonic that a step reports is printable. -/
theorem isPlain_mnemonic_of_step [RandomSource] {machine next : Machine} {result : StepResult}
    (step : machine.step = .ok (result, next)) : IsPlain result.mnemonic.toList := by
  cases Machine.stepsTo_of_step step with
  | paused => exact fun _ => nofun
  | invalid => exact isPlain_invalidOpcode _
  | refused runs decodes | awaiting runs decodes | completed runs decodes =>
      exact isPlain_mnemonic decodes

/-- The fault that a step reports is printable. -/
theorem isPlain_error_of_step [RandomSource] {machine next : Machine} {result : StepResult}
    (step : machine.step = .ok (result, next)) : ∀ error ∈ result.error, IsPlain error.toList := by
  intro error reported
  cases Machine.stepsTo_of_step step with
  | paused | awaiting | completed => cases reported
  | invalid =>
      cases reported
      exact isPlain_invalidOpcode _
  | refused runs decodes =>
      cases reported
      refine isPlain_notImplemented ?_ _
      simp only [String.toList_append, isPlain_append, isPlain_hex, and_true]
      decide

end Printable
end Chip8
