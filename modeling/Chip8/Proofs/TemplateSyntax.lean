import Chip8.Template
import Chip8.Proofs.Numerals
import Chip8.Proofs.Rendering

/-!
# The written form of templates

A template can be read back from its written form.  A brace that is text is written twice, so the
reader tells it from the brace of a field by the next character; the name of an operand has neither a
brace nor a colon, so the first colon in a field ends the name and the first closing brace the field.
In a specification the width does not begin with a zero, so the zeros before it stay apart.
-/

namespace Chip8

/-- Where a text goes on with a character of another kind, its front of one kind is all that is taken
from it. -/
theorem span_append {kind : Char → Bool} (front back : List Char)
    (inside : ∀ character ∈ front, kind character = true)
    (outside : ∀ character ∈ back.head?, kind character = false) :
    (front ++ back).takeWhile kind = front ∧ (front ++ back).dropWhile kind = back := by
  rw [List.takeWhile_append_of_pos inside, List.dropWhile_append_of_pos inside]
  cases back with
  | nil => simp
  | cons character rest =>
      have stop := outside character rfl
      simp [stop]

/-! ## Specifications -/

namespace Numeral

/-- A positive number is written without leading zeros. -/
theorem head?_digits_ne_zero {base value : Nat} (proper : 1 < base) (positive : 0 < value) :
    ∀ digit ∈ (digits base value).head?, digit ≠ 0 := by
  intro digit leads
  have last := Nat.getLast_digit_ne_zero base positive.ne'
  rw [digits_eq_reverse proper positive, List.head?_reverse,
    List.getLast?_eq_some_getLast (Nat.digits_ne_nil_iff_ne_zero.mpr positive.ne')] at leads
  cases leads
  exact last

theorem isDigit_character :
    ∀ digit < Style.decimal.base, (Style.decimal.character digit).isDigit = true := by
  decide

theorem upperDigit_ne_zero : ∀ digit < 10, digit ≠ 0 → upperDigit digit ≠ '0' := by
  decide

end Numeral

namespace FieldSpec

open Numeral (upperDigit)

theorem isDigit_of_mem_digits (value : Nat) :
    ∀ character ∈ Numeral.Style.decimal.digits value, character.isDigit = true := by
  have each := Numeral.isDigit_character
  exact Numeral.Style.decimal.forall_mem_digits each value

theorem widthOf_digits (value : Nat) : widthOf (Numeral.Style.decimal.digits value) = value := by
  have read : ∀ digit < 10, (upperDigit digit).toNat - '0'.toNat = digit := by decide
  have same : ∀ number, ∀ digit ∈ Numeral.digits 10 value,
      10 * number + ((upperDigit digit).toNat - '0'.toNat) = digit + 10 * number := by
    intro number digit among
    rw [read digit (Numeral.lt_of_mem_digits (by decide) among), Nat.add_comm]
  rw [widthOf, Numeral.Style.digits, List.foldl_map]
  exact (List.foldl_ext _ _ 0 same).trans (Numeral.foldl_digits (by decide))

/-- The width as it is written. -/
def widthText (width : Nat) : List Char :=
  if width = 0 then [] else Numeral.Style.decimal.digits width

theorem isDigit_of_mem_widthText (width : Nat) :
    ∀ character ∈ widthText width, character.isDigit = true := by
  unfold widthText
  split
  · nofun
  · exact isDigit_of_mem_digits width

theorem widthOf_widthText (width : Nat) : widthOf (widthText width) = width := by
  unfold widthText
  split
  next none_written => rw [none_written]; rfl
  next => exact widthOf_digits width

/-- The letter of a style as it is written. -/
def styleText (style : Option Numeral.Style) : List Char :=
  style.toList.map styleLetter

theorem styleOf?_styleText (style : Option Numeral.Style) :
    styleOf? (styleText style) = some style := by
  cases style with
  | none => rfl
  | some style => cases style <;> rfl

theorem head?_styleText (style : Option Numeral.Style) :
    ∀ character ∈ (styleText style).head?, character.isDigit = false := by
  cases style with
  | none => nofun
  | some style =>
      intro character leads
      cases leads
      cases style <;> rfl

/-- Neither a width nor a style begins with a zero. -/
theorem head?_widthText_append (width : Nat) (style : Option Numeral.Style) :
    ∀ character ∈ (widthText width ++ styleText style).head?, (character == '0') = false := by
  intro character leads
  rw [beq_eq_false_iff_ne]
  by_cases written : width = 0
  · rw [widthText, if_pos written, List.nil_append] at leads
    rintro rfl
    exact absurd (head?_styleText style '0' leads) (by decide)
  · have positive := Nat.pos_of_ne_zero written
    cases digits_eq : Numeral.digits 10 width with
    | nil =>
        have some_digit := Numeral.length_digits_pos (by decide : 1 < 10) width
        rw [digits_eq] at some_digit
        cases some_digit
    | cons digit digits =>
        rw [widthText, if_neg written, Numeral.Style.digits, digits_eq] at leads
        cases leads
        refine Numeral.upperDigit_ne_zero digit ?_ ?_
        · exact Numeral.lt_of_mem_digits (by decide : 1 < 10) (digits_eq ▸ List.mem_cons_self)
        · have leading : digit ∈ (Numeral.digits 10 width).head? := by
            rw [digits_eq]
            rfl
          exact Numeral.head?_digits_ne_zero (by decide) positive digit leading

theorem source_eq (spec : FieldSpec) :
    spec.source = List.replicate spec.zeros '0' ++ (widthText spec.width ++ styleText spec.style) :=
  List.append_assoc _ _ _

/-- A specification can be read back from its written form. -/
theorem parse?_source (spec : FieldSpec) : parse? spec.source = some spec := by
  have zeros : ∀ character ∈ List.replicate spec.zeros '0', (character == '0') = true := by
    intro character member
    rw [List.eq_of_mem_replicate member]
    rfl
  obtain ⟨taken, left⟩ := span_append _ _ zeros (head?_widthText_append spec.width spec.style)
  obtain ⟨digits, letter⟩ :=
    span_append _ _ (isDigit_of_mem_widthText spec.width) (head?_styleText spec.style)
  simp only [parse?, source_eq, taken, left, digits, letter, styleOf?_styleText,
    widthOf_widthText, List.length_replicate, Option.map_some]

theorem closing_not_mem_source (spec : FieldSpec) : '\x7d' ∉ spec.source := by
  rw [source_eq, List.mem_append, List.mem_append]
  rintro (zero | digit | letter)
  · exact absurd (List.eq_of_mem_replicate zero) (by decide)
  · exact absurd (isDigit_of_mem_widthText _ _ digit) (by decide)
  · revert letter
    cases spec.style with
    | none => nofun
    | some style => cases style <;> decide

end FieldSpec

/-! ## Pieces -/

namespace Operand

theorem name_of_ofName? {name : String} {operand : Operand} (named : ofName? name = some operand) :
    operand.name = name := by
  have matching := List.find?_some named
  exact beq_iff_eq.mp matching

/-- The name of an operand is not empty and has no character with a meaning of its own. -/
theorem name_plain (operand : Operand) :
    operand.name.toList ≠ [] ∧ ':' ∉ operand.name.toList ∧ '\x7b' ∉ operand.name.toList ∧
      '\x7d' ∉ operand.name.toList := by
  cases operand <;> decide

end Operand

namespace Segment

theorem ofBody?_name {name : List Char} (plain : ':' ∉ name) :
    ofBody? name = some (.field (String.ofList name) none) := by
  have inside : ∀ character ∈ name, (character != ':') = true := by
    intro character member
    exact bne_iff_ne.mpr fun colon => plain (colon ▸ member)
  obtain ⟨taken, left⟩ := span_append name [] inside nofun
  rw [List.append_nil] at taken left
  simp only [ofBody?, taken, left]

theorem ofBody?_spec {name : List Char} (plain : ':' ∉ name) (spec : FieldSpec) :
    ofBody? (name ++ ':' :: spec.source) = some (.field (String.ofList name) (some spec)) := by
  have inside : ∀ character ∈ name, (character != ':') = true := by
    intro character member
    exact bne_iff_ne.mpr fun colon => plain (colon ▸ member)
  obtain ⟨taken, left⟩ := span_append name (':' :: spec.source) inside (by simp)
  simp only [ofBody?, taken, left, spec.parse?_source, Option.map_some]

end Segment

namespace Template

/-- The rest of a field is read up to its closing brace. -/
theorem segmentsOf?_field {text : List Char} (open_body : '\x7d' ∉ text) (body rest : List Char) :
    segmentsOf? (.field body) (text ++ '\x7d' :: rest) =
      (Segment.ofBody? (body.reverse ++ text)).bind fun segment =>
        (segmentsOf? .start rest).map (segment :: ·) := by
  induction text generalizing body with
  | nil =>
      rw [List.nil_append, segmentsOf?, if_pos rfl, List.append_nil, Option.bind_eq_bind]
      refine Option.bind_congr fun segment _ => ?_
      cases segmentsOf? .start rest <;> rfl
  | cons character text ih =>
      obtain ⟨other, later⟩ := not_or.mp (mt List.mem_cons.mpr open_body)
      rw [List.cons_append, segmentsOf?, if_neg (Ne.symm other), ih later, List.reverse_cons,
        List.append_assoc]
      rfl

/-- A field is read from its opening brace on. -/
theorem segmentsOf?_opening {first : Char} {text : List Char} (other : first ≠ '\x7b')
    (open_body : '\x7d' ∉ first :: text) (rest : List Char) :
    segmentsOf? .start ('\x7b' :: first :: text ++ '\x7d' :: rest) =
      (Segment.ofBody? (first :: text)).bind fun segment =>
        (segmentsOf? .start rest).map (segment :: ·) := by
  obtain ⟨not_closing, later⟩ := not_or.mp (mt List.mem_cons.mpr open_body)
  rw [List.cons_append, List.cons_append, segmentsOf?, if_pos rfl, segmentsOf?, if_neg other,
    if_neg (Ne.symm not_closing), segmentsOf?_field later]
  rfl

/-- A known piece is read back, and reading goes on behind it. -/
theorem segmentsOf?_source {segment : Segment} (known : segment.isKnown = true)
    (rest : List Char) :
    segmentsOf? .start (segment.source ++ rest) =
      (segmentsOf? .start rest).map (segment :: ·) := by
  cases segment with
  | literal character =>
      by_cases opens : character = '\x7b'
      · subst opens
        rfl
      · by_cases closes : character = '\x7d'
        · subst closes
          rfl
        · simp [Segment.source, segmentsOf?, opens, closes]
  | field name spec =>
      obtain ⟨operand, named⟩ := Option.isSome_iff_exists.mp known
      obtain ⟨not_empty, no_colon, no_opening, no_closing⟩ := operand.name_plain
      rw [Operand.name_of_ofName? named] at not_empty no_colon no_opening no_closing
      obtain ⟨first, text, letters⟩ := List.exists_cons_of_ne_nil not_empty
      have name_eq : String.ofList (first :: text) = name := by
        rw [← letters, String.ofList_toList]
      rw [letters] at no_colon no_opening no_closing
      have not_opening : first ≠ '\x7b' := (List.ne_of_not_mem_cons no_opening).symm
      cases spec with
      | none =>
          rw [Segment.source, letters, List.append_assoc, List.singleton_append,
            segmentsOf?_opening not_opening no_closing, Segment.ofBody?_name no_colon, name_eq]
          rfl
      | some spec =>
          have open_body : '\x7d' ∉ first :: (text ++ ':' :: spec.source) := by
            rw [← List.cons_append]
            intro member
            rcases List.mem_append.mp member with inside | later
            · exact no_closing inside
            · rcases List.mem_cons.mp later with colon | inside
              · cases colon
              · exact spec.closing_not_mem_source inside
          have body := Segment.ofBody?_spec no_colon spec
          rw [List.cons_append] at body
          have read := segmentsOf?_opening not_opening open_body rest
          rw [body, name_eq] at read
          rw [Segment.source, letters]
          simpa using read

/-- A template whose fields name operands can be read back from its written form. -/
theorem parse?_source {template : Template}
    (known : ∀ segment ∈ template.segments, segment.isKnown = true) :
    parse? template.source = some template := by
  obtain ⟨segments⟩ := template
  suffices read : segmentsOf? .start (segments.flatMap Segment.source) = some segments by
    rw [parse?, source, String.toList_ofList, read]
    rfl
  induction segments with
  | nil => rfl
  | cons segment segments ih =>
      rw [List.flatMap_cons, segmentsOf?_source (known segment List.mem_cons_self),
        ih fun other later => known other (List.mem_cons_of_mem segment later)]
      rfl

end Template
end Chip8
