import Chip8.Table
import Chip8.Proofs.TemplateSyntax

/-!
# Mnemonics of opcodes that lack operands

An opcode that agrees with an entry has a mnemonic just when it carries every operand that the
template names.  Then the mnemonic is the text of the template with the operands in the places of
their fields, and it depends on nothing else.  Otherwise the fault names the leftmost operand that is
missing.
-/

namespace Chip8

/-! ## Operands that an opcode carries -/

/-- The value under the name of an operand that an opcode carries. -/
def Opcode.valueOf (opcode : Opcode) (name : String) : Int :=
  ((Operand.ofName? name).bind fun operand => operand.value? opcode).getD 0

namespace Operand

variable {operand : Operand} {opcode : Opcode}

theorem value?_eq_valueOf (present : (operand.value? opcode).isSome = true) :
    operand.value? opcode = some (opcode.valueOf operand.name) := by
  obtain ⟨value, found⟩ := Option.isSome_iff_exists.mp present
  rw [Opcode.valueOf, ofName?_name, Option.bind_some, found, Option.getD_some]

/-- An opcode with all four nibbles carries every operand. -/
theorem isSome_value?_of_nibbles (complete : ∀ nibble ∈ opcode.nibbles, nibble.isSome = true) :
    (operand.value? opcode).isSome = true := by
  obtain ⟨first, second, third, fourth⟩ := opcode
  simp only [Opcode.nibbles, List.forall_mem_cons, Option.isSome_iff_exists] at complete
  obtain ⟨⟨first, rfl⟩, ⟨second, rfl⟩, ⟨third, rfl⟩, ⟨fourth, rfl⟩, -⟩ := complete
  cases operand <;> rfl

end Operand

/-! ## Templates with known operands -/

namespace Template

variable {template : Template} {opcode : Opcode}

theorem fieldNames_eq_map (known : ∀ segment ∈ template.segments, segment.isKnown = true) :
    template.fieldNames = template.operands.map Operand.name := by
  obtain ⟨segments⟩ := template
  simp only [fieldNames, operands]
  induction segments with
  | nil => rfl
  | cons segment segments ih =>
      have others := ih fun other later => known other (List.mem_cons_of_mem segment later)
      cases segment with
      | literal character => exact others
      | field name spec =>
          obtain ⟨operand, named⟩ :=
            Option.isSome_iff_exists.mp (known (.field name spec) List.mem_cons_self)
          have written : Segment.name? (.field name spec) = some name := rfl
          have meant : Segment.operand? (.field name spec) = some operand := named
          rw [List.filterMap_cons_some written, List.filterMap_cons_some meant, List.map_cons,
            Operand.name_of_ofName? named, others]

/-- Operands that an opcode carries are shown in the places of their fields. -/
theorem render_of_present (known : ∀ segment ∈ template.segments, segment.isKnown = true)
    {value : String → Int}
    (present : ∀ operand ∈ template.operands, operand.value? opcode = some (value operand.name)) :
    template.render opcode =
      .ok (String.ofList (template.segments.flatMap (Segment.showing value))) := by
  refine render_of_found fun name member => ?_
  rw [fieldNames_eq_map known] at member
  obtain ⟨operand, among, rfl⟩ := List.mem_map.mp member
  rw [Opcode.operand_name, Opcode.require, present operand among]

/-- The leftmost operand that an opcode lacks is reported. -/
theorem render_of_missing (known : ∀ segment ∈ template.segments, segment.isKnown = true)
    {front back : List Operand} {operand : Operand}
    (split : template.operands = front ++ operand :: back)
    (present : ∀ earlier ∈ front, (earlier.value? opcode).isSome = true)
    (missing : operand.value? opcode = none) :
    template.render opcode = .error (.missingOperand operand.name opcode) := by
  have names : template.fieldNames =
      front.map Operand.name ++ operand.name :: back.map Operand.name := by
    rw [fieldNames_eq_map known, split, List.map_append, List.map_cons]
  have found : ∀ name ∈ front.map Operand.name,
      opcode.operand name = .ok (opcode.valueOf name) := by
    intro name member
    obtain ⟨earlier, among, rfl⟩ := List.mem_map.mp member
    rw [Opcode.operand_name, Opcode.require,
      Operand.value?_eq_valueOf (present earlier among)]
  have refused : opcode.operand operand.name = .error (.missingOperand operand.name opcode) := by
    rw [Opcode.operand_name, Opcode.require, missing]
  exact render_of_refused names found refused

/-- An opcode carries all of some operands, or there is a leftmost one that it lacks. -/
theorem present_or_missing (operands : List Operand) (opcode : Opcode) :
    (∀ operand ∈ operands, (operand.value? opcode).isSome = true) ∨
      ∃ front operand back, operands = front ++ operand :: back ∧
        (∀ earlier ∈ front, (earlier.value? opcode).isSome = true) ∧
        operand.value? opcode = none := by
  induction operands with
  | nil => exact .inl nofun
  | cons head operands ih =>
      cases own : head.value? opcode with
      | none => exact .inr ⟨[], head, operands, rfl, nofun, own⟩
      | some value =>
          have here : (head.value? opcode).isSome = true := by rw [own, Option.isSome_some]
          rcases ih with present | ⟨front, operand, back, rfl, present, missing⟩
          · exact .inl (List.forall_mem_cons.mpr ⟨here, present⟩)
          · exact .inr ⟨head :: front, operand, back, rfl,
              List.forall_mem_cons.mpr ⟨here, present⟩, missing⟩

end Template

/-! ## Mnemonics -/

namespace Entry

variable {Action : Type} {entry : Entry Action} {opcode : Opcode}

theorem describe_of_agrees (agrees : entry.pattern.agrees opcode = true) :
    entry.describe opcode = entry.template.render opcode := by
  rw [describe, check, if_pos agrees, ok_bind]

section Known

variable (known : ∀ segment ∈ entry.template.segments, segment.isKnown = true)
  (agrees : entry.pattern.agrees opcode = true)

include known agrees

theorem describe_of_present
    (present : ∀ operand ∈ entry.template.operands, (operand.value? opcode).isSome = true) :
    entry.describe opcode =
      .ok (String.ofList (entry.template.segments.flatMap (Segment.showing opcode.valueOf))) :=
  (describe_of_agrees agrees).trans (Template.render_of_present known fun operand among =>
    Operand.value?_eq_valueOf (present operand among))

theorem exists_describe_of_missing {operand : Operand}
    (among : operand ∈ entry.template.operands) (missing : operand.value? opcode = none) :
    ∃ name, entry.describe opcode = .error (.missingOperand name opcode) := by
  rcases Template.present_or_missing entry.template.operands opcode with
    present | ⟨front, leftmost, back, split, present, lacking⟩
  · have carried := present operand among
    rw [missing] at carried
    cases carried
  · exact ⟨leftmost.name, (describe_of_agrees agrees).trans
      (Template.render_of_missing known split present lacking)⟩

/-- There is a mnemonic just when no operand of the template is missing. -/
theorem exists_describe_iff :
    (∃ text, entry.describe opcode = .ok text) ↔
      ∀ operand ∈ entry.template.operands, (operand.value? opcode).isSome = true := by
  constructor
  · rintro ⟨text, described⟩ operand among
    rw [Option.isSome_iff_ne_none]
    intro missing
    obtain ⟨name, refused⟩ := exists_describe_of_missing known agrees among missing
    rw [described] at refused
    cases refused
  · exact fun present => ⟨_, describe_of_present known agrees present⟩

/-- A missing operand is reported just when an operand of the template is missing. -/
theorem exists_missing_iff :
    (∃ name other, entry.describe opcode = .error (.missingOperand name other)) ↔
      ∃ operand ∈ entry.template.operands, operand.value? opcode = none := by
  constructor
  · rintro ⟨name, other, refused⟩
    by_contra none_missing
    have present : ∀ operand ∈ entry.template.operands,
        (operand.value? opcode).isSome = true := by
      intro operand among
      rw [Option.isSome_iff_ne_none]
      exact fun missing => none_missing ⟨operand, among, missing⟩
    rw [describe_of_present known agrees present] at refused
    cases refused
  · rintro ⟨operand, among, missing⟩
    obtain ⟨name, refused⟩ := exists_describe_of_missing known agrees among missing
    exact ⟨name, opcode, refused⟩

/-- A mnemonic depends on nothing but the operands that the template names. -/
theorem toOption_describe_congr {other : Opcode} (agrees_other : entry.pattern.agrees other = true)
    (same : ∀ operand ∈ entry.template.operands, operand.value? opcode = operand.value? other) :
    (entry.describe opcode).toOption = (entry.describe other).toOption := by
  rcases Template.present_or_missing entry.template.operands opcode with
    present | ⟨front, operand, back, split, -, missing⟩
  · have own := describe_of_present known agrees present
    have other_shown : ∀ operand ∈ entry.template.operands,
        operand.value? other = some (opcode.valueOf operand.name) := by
      intro operand among
      rw [← same operand among]
      exact Operand.value?_eq_valueOf (present operand among)
    rw [own, describe_of_agrees agrees_other, Template.render_of_present known other_shown]
  · have among : operand ∈ entry.template.operands := by
      rw [split]
      exact List.mem_append_right front List.mem_cons_self
    obtain ⟨name, refused⟩ := exists_describe_of_missing known agrees among missing
    obtain ⟨other_name, refused_other⟩ :=
      exists_describe_of_missing known agrees_other among ((same operand among).symm.trans missing)
    rw [refused, refused_other]
    rfl

end Known
end Entry

/-- For an entry whose template is written with fields for operands, and an opcode that agrees with
it: an operand is reported missing just when the opcode lacks one that the template names, and it is
the leftmost such operand; otherwise there is a mnemonic, the text of the template with the value of
its operand in the place of each field.  So there is one for every opcode with all four nibbles, and
opcodes that carry the same operands of the template have the same mnemonic or none. -/
theorem mnemonics_need_every_operand {Action : Type} (entry : Entry Action) (opcode : Opcode)
    (known : ∀ segment ∈ entry.template.segments, segment.isKnown = true)
    (agrees : entry.pattern.agrees opcode = true) :
    let operands := entry.template.operands
    Template.parse? entry.template.source = some entry.template ∧
      ((∃ name other, entry.describe opcode = .error (.missingOperand name other)) ↔
        ∃ operand ∈ operands, operand.value? opcode = none) ∧
      (∀ front operand back, operands = front ++ operand :: back →
        (∀ earlier ∈ front, (earlier.value? opcode).isSome = true) →
        operand.value? opcode = none →
        entry.describe opcode = .error (.missingOperand operand.name opcode)) ∧
      ((∃ text, entry.describe opcode = .ok text) ↔
        ∀ operand ∈ operands, (operand.value? opcode).isSome = true) ∧
      (∀ value : String → Int,
        (∀ operand ∈ operands, operand.value? opcode = some (value operand.name)) →
        entry.describe opcode =
          .ok (String.ofList (entry.template.segments.flatMap (Segment.showing value)))) ∧
      ((∀ nibble ∈ opcode.nibbles, nibble.isSome = true) →
        ∃ text, entry.describe opcode = .ok text) ∧
      ∀ other : Opcode, entry.pattern.agrees other = true →
        (∀ operand ∈ operands, operand.value? opcode = operand.value? other) →
        (entry.describe opcode).toOption = (entry.describe other).toOption := by
  intro operands
  have described := Entry.describe_of_agrees agrees
  refine ⟨Template.parse?_source known, Entry.exists_missing_iff known agrees, ?_,
    Entry.exists_describe_iff known agrees, ?_, ?_, ?_⟩
  · intro front operand back split present missing
    exact described.trans (Template.render_of_missing known split present missing)
  · exact fun value present => described.trans (Template.render_of_present known present)
  · exact fun complete => (Entry.exists_describe_iff known agrees).mpr
      fun operand _ => operand.isSome_value?_of_nibbles complete
  · exact fun other => Entry.toOption_describe_congr known agrees

/-- A template with a brace that is text and a field that occurs twice, for an opcode with its first
and third nibbles alone: of the two operands that are missing the left one is reported. -/
theorem mnemonics_need_every_operand_of_half_an_opcode :
    let template : Template := ⟨[.literal '\x7b', .field "y" (some ⟨0, 0, some .upperHex⟩),
      .field "x" (some ⟨1, 2, some .lowerHex⟩), .field "nnn" none, .field "y" none]⟩
    let entry : Entry Unit := ⟨"HALF", .ofNibbles [some 1], template, ()⟩
    let opcode : Opcode := .ofNibbles [some 1, none, some 13]
    (∀ segment ∈ template.segments, segment.isKnown = true) ∧
      entry.pattern.agrees opcode = true ∧
      entry.describe opcode = .error (.missingOperand "x" opcode) := by
  intro template entry opcode
  have known : ∀ segment ∈ template.segments, segment.isKnown = true := by decide
  have agrees : entry.pattern.agrees opcode = true := by decide
  obtain ⟨-, -, leftmost, -⟩ := mnemonics_need_every_operand entry opcode known agrees
  exact ⟨known, agrees, leftmost [.y] .x [.nnn, .y] (by decide) (by decide) (by decide)⟩

end Chip8
