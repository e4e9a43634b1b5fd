import Mathlib.Data.Finset.Card
import Mathlib.Data.Fintype.Basic
import Mathlib.Data.List.Nodup
import Mathlib.Data.Set.BooleanAlgebra
import Mathlib.Order.CompletePartialOrder
import Mathlib.Tactic.FinCases
import Chip8.Proofs.Encoding

/-!
# Patterns as sets of opcodes

A pattern stands for the set of full opcodes that agree with it.  If that set lies strictly inside
the set of another pattern, the first pattern has every nibble that the second one has and more, so
it is more specific; a table never chooses an entry where a narrower one agrees as well.  If no
opcode agrees with two patterns that are equally specific there are no ties, and the order in which
the entries are declared does not matter.  The instruction set is a table without ties.
-/

namespace Chip8

/-! ## The language of a pattern -/

namespace Opcode

/-- The opcode of four digits, which lacks no nibble. -/
def ofDigits (digits : Fin 4 → Fin 16) : Opcode :=
  ⟨some (digits 0).val, some (digits 1).val, some (digits 2).val, some (digits 3).val⟩

/-- The nibble at a place, if there is one. -/
def nibble (opcode : Opcode) : Fin 4 → Option Int
  | 0 => opcode.first
  | 1 => opcode.second
  | 2 => opcode.third
  | 3 => opcode.fourth

/-- The digits of the full opcodes that agree with a pattern. -/
def language (pattern : Opcode) : Set (Fin 4 → Fin 16) :=
  {digits | pattern.agrees (ofDigits digits) = true}

/-- The places where a pattern has a nibble. -/
def places (pattern : Opcode) : Finset (Fin 4) :=
  Finset.univ.filter fun place => (pattern.nibble place).isSome

theorem nibble_ofDigits (digits : Fin 4 → Fin 16) (place : Fin 4) :
    (ofDigits digits).nibble place = some ((digits place).val : Int) := by
  fin_cases place <;> rfl

theorem exists_ofDigits_eq_decode (word : Int) : ∃ digits, ofDigits digits = decode word := by
  refine ⟨fun place => Bits.lowNibble (word / 16 ^ (3 - place.val)), ?_⟩
  simp [ofDigits, decode, Bits.lowNibble]
  omega

theorem exists_decode_eq_ofDigits (digits : Fin 4 → Fin 16) :
    ∃ word, decode word = ofDigits digits := by
  refine ⟨4096 * (digits 0).val + 256 * (digits 1).val + 16 * (digits 2).val + (digits 3).val, ?_⟩
  simp [ofDigits, decode]
  omega

theorem nibbleAgrees_some_iff {nibble : Option Int} {digit : Int} :
    nibbleAgrees nibble (some digit) = true ↔ ∀ value, nibble = some value → value = digit := by
  cases nibble with
  | none => simp
  | some value => simp [nibbleAgrees]

/-- A full opcode is in the language of a pattern when it has the pattern's nibbles. -/
theorem mem_language {pattern : Opcode} {digits : Fin 4 → Fin 16} :
    digits ∈ pattern.language ↔
      ∀ place value, pattern.nibble place = some value → value = (digits place).val := by
  change pattern.agrees (ofDigits digits) = true ↔ _
  simp only [agrees, ofDigits, Bool.and_eq_true, nibbleAgrees_some_iff]
  constructor
  · rintro ⟨⟨⟨first, second⟩, third⟩, fourth⟩ place
    fin_cases place
    · exact first
    · exact second
    · exact third
    · exact fourth
  · intro inside
    exact ⟨⟨⟨inside 0, inside 1⟩, inside 2⟩, inside 3⟩

theorem mem_places {pattern : Opcode} {place : Fin 4} :
    place ∈ pattern.places ↔ ∃ value, pattern.nibble place = some value := by
  simp [places, Option.isSome_iff_exists]

theorem card_places (pattern : Opcode) : pattern.places.card = pattern.specificity := by
  obtain ⟨first, second, third, fourth⟩ := pattern
  cases first <;> cases second <;> cases third <;> cases fourth <;> rfl

section Narrower

variable {inner outer : Opcode} {digits : Fin 4 → Fin 16}

/-- Where a pattern has no nibble, one whose language holds its language has none either. -/
theorem places_subset_of_language_subset (inhabited : digits ∈ inner.language)
    (subset : inner.language ⊆ outer.language) : outer.places ⊆ inner.places := by
  intro place constrained
  obtain ⟨value, present⟩ := mem_places.mp constrained
  refine Classical.byContradiction fun free => ?_
  -- Where the inner pattern is free, its opcodes may have any digit, but the outer one fixes it.
  have still : Function.update digits place (digits place + 1) ∈ inner.language := by
    rw [mem_language] at inhabited ⊢
    intro other nibble found
    have elsewhere : other ≠ place := by
      rintro rfl
      exact free (mem_places.mpr ⟨nibble, found⟩)
    rw [inhabited other nibble found, Function.update_of_ne elsewhere]
  have before := mem_language.mp (subset inhabited) place value present
  have after := mem_language.mp (subset still) place value present
  rw [Function.update_self] at after
  omega

/-- Of two patterns that share a full opcode, one with all the places of the other has the smaller
language. -/
theorem language_subset_of_places_subset (in_inner : digits ∈ inner.language)
    (in_outer : digits ∈ outer.language) (subset : outer.places ⊆ inner.places) :
    inner.language ⊆ outer.language := by
  intro other member
  rw [mem_language] at in_inner in_outer member ⊢
  intro place value present
  obtain ⟨own, found⟩ := mem_places.mp (subset (mem_places.mpr ⟨value, present⟩))
  rw [in_outer place value present, ← in_inner place own found, member place own found]

/-- The pattern with the smaller language is the more specific one. -/
theorem specificity_lt_of_language_ssubset (inhabited : digits ∈ inner.language)
    (narrower : inner.language ⊂ outer.language) : outer.specificity < inner.specificity := by
  have subset := places_subset_of_language_subset inhabited narrower.subset
  rw [← card_places, ← card_places]
  refine Finset.card_lt_card ⟨subset, fun superset => narrower.not_subset ?_⟩
  exact language_subset_of_places_subset (narrower.subset inhabited) inhabited superset

end Narrower

/-- Patterns of one full opcode agree with each other. -/
theorem agrees_of_mem_language {left right : Opcode} {digits : Fin 4 → Fin 16}
    (in_left : digits ∈ left.language) (in_right : digits ∈ right.language) :
    left.agrees right = true := by
  obtain ⟨word, decoded⟩ := exists_decode_eq_ofDigits digits
  change left.agrees (ofDigits digits) = true at in_left
  change right.agrees (ofDigits digits) = true at in_right
  rw [← decoded] at in_left in_right
  exact agrees_of_decode in_left in_right

end Opcode

/-! ## Tables without ties -/

namespace Table

variable {Action : Type} {table other : Table Action} {digits : Fin 4 → Fin 16}
  {chosen entry : Entry Action}

/-- No full opcode agrees with two entries that are equally specific. -/
def Untied (table : Table Action) : Prop :=
  ∀ entry ∈ table.entries, ∀ other ∈ table.entries, entry ≠ other →
    entry.pattern.specificity = other.pattern.specificity →
    Disjoint entry.pattern.language other.pattern.language

theorem find_ofDigits (table : Table Action) (digits : Fin 4 → Fin 16) :
    table.find (.ofDigits digits) = .ok (table.select (.ofDigits digits)) := by
  refine table.find_eq_select fun nibble first => ?_
  cases first
  omega

/-- The chosen entry is not wider than another one that agrees. -/
theorem not_language_ssubset_of_select (selected : table.select (.ofDigits digits) = some chosen)
    (member : entry ∈ table.entries) (agrees : digits ∈ entry.pattern.language) :
    ¬entry.pattern.language ⊂ chosen.pattern.language := by
  intro narrower
  have less := Opcode.specificity_lt_of_language_ssubset agrees narrower
  have most := specificity_le_of_select rfl selected member agrees
  omega

/-- Where there are no ties, the entries alone determine the choice. -/
theorem select_eq_of_perm (untied : table.Untied) (perm : table.entries.Perm other.entries)
    (digits : Fin 4 → Fin 16) :
    other.select (.ofDigits digits) = table.select (.ofDigits digits) := by
  cases selected : table.select (.ofDigits digits) with
  | none =>
      rw [select_eq_none_iff] at selected ⊢
      exact fun entry member => selected entry (perm.mem_iff.mpr member)
  | some chosen =>
      obtain ⟨member, agrees⟩ := mem_of_select selected
      cases also : other.select (.ofDigits digits) with
      | none =>
          have disagrees := agrees_of_select_eq_none also chosen (perm.mem_iff.mp member)
          rw [agrees] at disagrees
          cases disagrees
      | some entry =>
          obtain ⟨listed, agrees'⟩ := mem_of_select also
          have least := specificity_le_of_select rfl also (perm.mem_iff.mp member) agrees
          have most := specificity_le_of_select rfl selected (perm.mem_iff.mpr listed) agrees'
          -- Both are among the most specific, so they would tie if they were not the same.
          refine congrArg some (Classical.byContradiction fun different => ?_)
          have apart := untied entry (perm.mem_iff.mpr listed) chosen member different
            (Nat.le_antisymm most least)
          exact Set.disjoint_left.mp apart agrees' agrees

end Table

/-! ## The instruction set -/

/-- Each operation has one entry. -/
theorem eq_of_action_eq {entry other : Entry Operation} (member : entry ∈ instructionSet.entries)
    (listed : other ∈ instructionSet.entries) (same : entry.action = other.action) :
    entry = other := by
  have distinct : (instructionSet.entries.map Entry.action).Nodup := by
    decide +kernel
  exact List.inj_on_of_nodup_map distinct member listed same

theorem untied_instructionSet : instructionSet.Untied := by
  intro entry member other listed different equal
  rw [Set.disjoint_left]
  intro digits in_entry in_other
  have meets := Opcode.agrees_of_mem_language in_entry in_other
  have meets' := Opcode.agrees_of_mem_language in_other in_entry
  -- Only machine calls meet other entries, and all of these are more specific.
  rcases meet_of_mem_instructionSet entry member other listed meets with
    same | refused | ⟨-, less⟩
  · exact different (eq_of_action_eq member listed same)
  · rcases meet_of_mem_instructionSet other listed entry member meets' with
      same | refused' | ⟨-, less⟩
    · exact different (eq_of_action_eq member listed same.symm)
    · exact different (eq_of_action_eq member listed (refused.trans refused'.symm))
    · omega
  · omega

/-- An entry is never shadowed: whatever the table, the entry found for a full opcode is not wider
than another one that agrees with it.  If no full opcode agrees with two entries that are equally
specific, the entries may be declared in any order, and the same one is found.  The thirty-five
instructions are such entries, so in any order they give the same instruction for every word. -/
theorem declaration_order_never_matters :
    (∀ {Action : Type} (table : Table Action) (digits : Fin 4 → Fin 16)
      (chosen entry : Entry Action), table.find (.ofDigits digits) = .ok (some chosen) →
      entry ∈ table.entries → digits ∈ entry.pattern.language →
      ¬entry.pattern.language ⊂ chosen.pattern.language) ∧
    (∀ {Action : Type} (table other : Table Action), table.Untied →
      table.entries.Perm other.entries → ∀ digits : Fin 4 → Fin 16,
      other.find (.ofDigits digits) = table.find (.ofDigits digits)) ∧
    instructionSet.entries.length = 35 ∧ instructionSet.Untied ∧
      ∀ other : Table Operation, instructionSet.entries.Perm other.entries →
        ∀ word : Int, other.find (.decode word) = instructionSet.find (.decode word) := by
  refine ⟨?_, ?_, rfl, untied_instructionSet, ?_⟩
  · intro Action table digits chosen entry found member agrees
    rw [table.find_ofDigits] at found
    exact Table.not_language_ssubset_of_select (Except.ok.inj found) member agrees
  · intro Action table other untied perm digits
    rw [other.find_ofDigits, table.find_ofDigits, Table.select_eq_of_perm untied perm]
  · intro other perm word
    obtain ⟨digits, decoded⟩ := Opcode.exists_ofDigits_eq_decode word
    rw [← decoded, other.find_ofDigits, instructionSet.find_ofDigits,
      Table.select_eq_of_perm untied_instructionSet perm]

/-- The word for clearing the screen would also be a machine call; it clears the screen even when
the instructions are declared backwards. -/
theorem declaration_order_never_matters_backwards :
    let backwards : Table Operation := ⟨instructionSet.entries.reverse⟩
    let digits : Fin 4 → Fin 16 := fun place => if place = 2 then 0xE else 0
    instructionSet.entries.Perm backwards.entries ∧
      ∃ clear call, clear.action = .clearScreen ∧ call.action = .machineCall ∧
        call ∈ instructionSet.entries ∧ digits ∈ call.pattern.language ∧
        ¬call.pattern.language ⊂ clear.pattern.language ∧
        backwards.find (.ofDigits digits) = .ok (some clear) ∧
        backwards.find (.decode 0x00E0) = .ok (some clear) := by
  intro backwards digits
  obtain ⟨never_shadowed, reordered, -, untied, any_word⟩ := declaration_order_never_matters
  have perm : instructionSet.entries.Perm backwards.entries :=
    (List.reverse_perm instructionSet.entries).symm
  obtain ⟨clear, found, clears⟩ : ∃ clear,
      instructionSet.find (.ofDigits digits) = .ok (some clear) ∧ clear.action = .clearScreen :=
    ⟨_, rfl, rfl⟩
  obtain ⟨call, listed, calls, agrees⟩ : ∃ call ∈ instructionSet.entries,
      call.action = .machineCall ∧ digits ∈ call.pattern.language :=
    ⟨_, .tail _ (.tail _ (.head _)), rfl, rfl⟩
  refine ⟨perm, clear, call, clears, calls, listed, agrees, ?_, ?_, ?_⟩
  · exact never_shadowed instructionSet digits clear call found listed agrees
  · rw [reordered instructionSet backwards untied perm digits, found]
  · exact (any_word backwards perm 0x00E0).trans found

end Chip8
