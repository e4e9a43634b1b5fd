import Mathlib.Data.Int.Bitwise
import Chip8.Proofs.Encoding
import Chip8.Proofs.Numerals
import Chip8.Threefry

/-!
# Fields of bits

An integer of any size and sign has a bit at every place, those of its two's complement.  A mask and
a shift pick a row of them out, and so do a division and a remainder.  Decoding takes the lowest
sixteen bits of an integer in this way and nothing else, so it comes to the same for integers that
are equal modulo `65536`, and an opcode with four digits is decoded from its own word again.
-/

namespace Chip8

/-! ## Bits of integers -/

namespace Bits

theorem testBit_and (left right : Int) (place : Nat) :
    (and left right).testBit place = (left.testBit place && right.testBit place) := by
  cases left with
  | ofNat left =>
      cases right with
      | ofNat right => exact Nat.testBit_and left right place
      | negSucc right =>
          simp only [and, Int.testBit, Nat.testBit_xor, Nat.testBit_and]
          cases left.testBit place <;> simp
  | negSucc left =>
      cases right with
      | ofNat right =>
          simp only [and, Int.testBit, Nat.testBit_xor, Nat.testBit_and]
          cases right.testBit place <;> simp
      | negSucc right =>
          simp only [and, Int.testBit, Nat.testBit_or, Bool.not_or]

theorem and_natCast_nonneg (number : Int) (mask : Nat) : 0 ≤ and number mask := by
  cases number <;> exact Int.natCast_nonneg _

theorem testBit_shiftRight (number : Int) (distance place : Nat) :
    (number >>> distance).testBit place = number.testBit (distance + place) := by
  cases number with
  | ofNat number => exact Nat.testBit_shiftRight number
  | negSucc number => exact congrArg not (Nat.testBit_shiftRight number)

theorem testBit_ediv (number : Int) (distance place : Nat) :
    (number / 2 ^ distance).testBit place = number.testBit (distance + place) := by
  have shifted := number.shiftRight_eq_div_pow distance
  push_cast at shifted
  rw [← shifted, testBit_shiftRight]

theorem testBit_emod (number : Int) {width place : Nat} (inside : place < width) :
    (number % 2 ^ width).testBit place = number.testBit place := by
  cases number with
  | ofNat number =>
      have rest : (Int.ofNat number : Int) % 2 ^ width = (number % 2 ^ width : Nat) := by simp
      rw [rest]
      simp [Int.testBit, inside]
  | negSucc number =>
      have below : number % 2 ^ width < 2 ^ width := Nat.mod_lt number (Nat.two_pow_pos width)
      -- The remainder is the complement, among the lowest bits, of that of the complement.
      have rest : Int.negSucc number % 2 ^ width =
          (2 ^ width - (number % 2 ^ width + 1) : Nat) := by
        rw [Int.negSucc_emod number (by positivity), Nat.cast_sub below]
        push_cast
        ring
      rw [rest]
      change (2 ^ width - (number % 2 ^ width + 1)).testBit place = !number.testBit place
      rw [Nat.testBit_two_pow_sub_succ below]
      simp [inside]

end Bits

/-! ## Fields -/

/-- A value has the bits of a number from the lowest place of a field on, and no more of them than
the field is wide. -/
structure IsField (number : Int) (lowest width : Nat) (value : Int) : Prop where
  nonneg : 0 ≤ value
  lt : value < 2 ^ width
  testBit : ∀ place < width, value.testBit place = number.testBit (lowest + place)

namespace IsField

variable {number value other : Int} {lowest width : Nat}

theorem unique (field : IsField number lowest width value)
    (field_other : IsField number lowest width other) : value = other := by
  obtain ⟨value, rfl⟩ := Int.eq_ofNat_of_zero_le field.nonneg
  obtain ⟨other, rfl⟩ := Int.eq_ofNat_of_zero_le field_other.nonneg
  have lt : value < 2 ^ width := by exact_mod_cast field.lt
  have lt_other : other < 2 ^ width := by exact_mod_cast field_other.lt
  congr 1
  apply Nat.eq_of_testBit_eq
  intro place
  by_cases inside : place < width
  · exact (field.testBit place inside).trans (field_other.testBit place inside).symm
  · have beyond : 2 ^ width ≤ 2 ^ place := Nat.pow_le_pow_right Nat.two_pos (not_lt.mp inside)
    rw [Nat.testBit_lt_two_pow (lt.trans_le beyond),
      Nat.testBit_lt_two_pow (lt_other.trans_le beyond)]

theorem ediv_emod (number : Int) (lowest width : Nat) :
    IsField number lowest width (number / 2 ^ lowest % 2 ^ width) where
  nonneg := Int.emod_nonneg _ (by positivity)
  lt := Int.emod_lt_of_pos _ (by positivity)
  testBit place inside := by rw [Bits.testBit_emod _ inside, Bits.testBit_ediv]

/-- The bits of a field, all set. -/
def mask (lowest width : Nat) : Nat :=
  (2 ^ width - 1) <<< lowest

/-- What a mask leaves of a number, moved to the lowest places, is the field of the mask. -/
theorem and_mask (number : Int) (lowest width : Nat) :
    IsField number lowest width (Bits.and number (mask lowest width) >>> lowest) := by
  have picked (place : Nat) : (Bits.and number (mask lowest width) >>> lowest).testBit place =
      (number.testBit (lowest + place) && decide (place < width)) := by
    have in_mask : (mask lowest width : Int).testBit (lowest + place) = decide (place < width) := by
      simp [mask, Int.testBit]
    rw [Bits.testBit_shiftRight, Bits.testBit_and, in_mask]
  have nonneg : 0 ≤ Bits.and number (mask lowest width) >>> lowest :=
    Int.le_shiftRight_of_nonneg (Bits.and_natCast_nonneg number _)
  refine ⟨nonneg, ?_, fun place inside => ?_⟩
  · obtain ⟨value, same⟩ := Int.eq_ofNat_of_zero_le nonneg
    rw [same] at picked ⊢
    have none_beyond : ∀ place ≥ width, value.testBit place = false := by
      intro place beyond
      have bit : value.testBit place = _ := picked place
      rw [bit, decide_eq_false (not_lt.mpr beyond), Bool.and_false]
    exact_mod_cast Nat.lt_pow_two_of_testBit value none_beyond
  · rw [picked, decide_eq_true inside, Bool.and_true]

end IsField

/-! ## Decoded words -/

namespace Opcode

/-- Every nibble of an opcode is there and is a hexadecimal digit. -/
def IsComplete (opcode : Opcode) : Prop :=
  ∀ nibble ∈ opcode.nibbles, ∃ digit ∈ nibble, 0 ≤ digit ∧ digit < 16

/-- The nibbles that masks pick out of the lowest sixteen bits of a number. -/
def masked (number : Int) : Opcode :=
  let word := Bits.and number 0xFFFF
  let digit (mask : Int) (lowest : Nat) : Int := Bits.and word mask >>> lowest
  { first := some (digit 0xF000 12)
    second := some (digit 0x0F00 8)
    third := some (digit 0x00F0 4)
    fourth := some (digit 0x000F 0) }

/-- Masks and shifts pick out the nibbles that divisions and remainders do. -/
theorem masked_eq_decode (number : Int) : masked number = decode number := by
  have picked (mask number : Int) (lowest width : Nat)
      (row : mask = IsField.mask lowest width) :
      Bits.and number mask >>> lowest = number / 2 ^ lowest % 2 ^ width := by
    rw [row]
    exact (IsField.and_mask number lowest width).unique (.ediv_emod number lowest width)
  have word : Bits.and number 0xFFFF = number % 65536 := by
    simpa using picked 0xFFFF number 0 16 rfl
  simp only [masked, word]
  rw [← decode_emod number, picked 0xF000 _ 12 4 rfl, picked 0x0F00 _ 8 4 rfl,
    picked 0x00F0 _ 4 4 rfl, picked 0x000F _ 0 4 rfl]
  simp [decode]

/-- An operand whose value is worked out by division and remainder is a field of the word. -/
theorem exists_field {operand : Operand} {number : Int} {lowest width : Nat}
    (same : operand.valueIn number = number % 65536 / 2 ^ lowest % 2 ^ width) :
    ∃ value ∈ operand.value? (decode number), IsField (number % 65536) lowest width value :=
  ⟨_, operand.value?_decode number, same ▸ .ediv_emod (number % 65536) lowest width⟩

theorem isComplete_decode (number : Int) : (decode number).IsComplete := by
  intro nibble member
  simp only [nibbles, decode, List.mem_cons, List.not_mem_nil, or_false] at member
  rcases member with rfl | rfl | rfl | rfl <;> exact ⟨_, rfl, by omega, by omega⟩

/-- A complete opcode is the one that some number is decoded as. -/
theorem IsComplete.exists_decode {opcode : Opcode} (complete : opcode.IsComplete) :
    ∃ number, decode number = opcode := by
  obtain ⟨first, second, third, fourth⟩ := opcode
  obtain ⟨a, rfl, a_nonneg, a_lt⟩ := complete first (by simp [nibbles])
  obtain ⟨b, rfl, b_nonneg, b_lt⟩ := complete second (by simp [nibbles])
  obtain ⟨c, rfl, c_nonneg, c_lt⟩ := complete third (by simp [nibbles])
  obtain ⟨d, rfl, d_nonneg, d_lt⟩ := complete fourth (by simp [nibbles])
  refine ⟨4096 * a + 256 * b + 16 * c + d, ?_⟩
  simp only [decode, mk.injEq, Option.some.injEq]
  omega

/-- A decoded number is written as the lowest sixteen of its bits are. -/
theorem text_decode (number : Int) :
    (decode number).text = Numeral.hex 4 (number % 65536) := by
  have first : number % 65536 / 16 / 16 / 16 = number / 4096 % 16 := by omega
  have second : number % 65536 / 16 / 16 % 16 = number / 256 % 16 := by omega
  have third : number % 65536 / 16 % 16 = number / 16 % 16 := by omega
  have fourth : number % 65536 % 16 = number % 16 := by omega
  rw [Numeral.hex_succ (by omega) (by omega), Numeral.hex_succ (by omega) (by omega),
    Numeral.hex_succ (by omega) (by omega), first, second, third, fourth]
  simp [text, nibbles, decode, nibbleText, String.join, Numeral.hex_zero]

/-- An opcode shows the lowest sixteen bits of a number in its nibbles, in its operands and as a
text. -/
structure Reads (opcode : Opcode) (number : Int) : Prop where
  complete : opcode.IsComplete
  raw : Operand.raw.value? opcode = some (number % 65536)
  nnn : ∃ value ∈ Operand.nnn.value? opcode, IsField (number % 65536) 0 12 value
  nn : ∃ value ∈ Operand.nn.value? opcode, IsField (number % 65536) 0 8 value
  n : ∃ value ∈ Operand.n.value? opcode, IsField (number % 65536) 0 4 value
  x : ∃ value ∈ Operand.x.value? opcode, IsField (number % 65536) 8 4 value
  y : ∃ value ∈ Operand.y.value? opcode, IsField (number % 65536) 4 4 value
  text : Numeral.IsCapitalHex opcode.text 4 (number % 65536)

theorem reads_decode (number : Int) : (decode number).Reads number where
  complete := isComplete_decode number
  raw := Operand.value?_decode .raw number
  nnn := exists_field (by simp only [Operand.valueIn]; omega)
  nn := exists_field (by simp only [Operand.valueIn]; omega)
  n := exists_field (by simp only [Operand.valueIn]; omega)
  x := exists_field (by simp only [Operand.valueIn]; omega)
  y := exists_field (by simp only [Operand.valueIn]; omega)
  text := by
    rw [text_decode]
    exact Numeral.isCapitalHex_hex (by omega) (by omega) (by omega)

theorem IsComplete.decode_word {opcode : Opcode} (complete : opcode.IsComplete) :
    (Operand.raw.value? opcode).map decode = some opcode := by
  obtain ⟨number, rfl⟩ := complete.exists_decode
  rw [Operand.value?_decode, Option.map_some, Operand.valueIn, decode_emod]

theorem decode_add_mul (number turns : Int) : decode (number + 65536 * turns) = decode number := by
  rw [← decode_emod, Int.add_mul_emod_self_left, decode_emod]

end Opcode

/-- An integer of any size and sign is decoded by masks and shifts as an opcode that shows its
lowest sixteen bits, in four digits and in each operand, and an opcode of four digits is decoded
from its own word again.  So integers that are equal modulo `65536` are found in the instruction
set, run and described alike. -/
theorem decoding_is_exact_and_periodic [RandomSource] :
    (∀ number : Int,
      (Opcode.decode number).Reads number ∧ Opcode.decode number = .masked number) ∧
    (∀ opcode : Opcode, opcode.IsComplete →
      (Operand.raw.value? opcode).map .decode = some opcode) ∧
    ∀ number turns : Int,
      let other := number + 65536 * turns
      instructionSet.find (.decode other) = instructionSet.find (.decode number) ∧
        (∀ state, execute state other = execute state number) ∧
        describe other = describe number ∧ describeWord other = describeWord number := by
  refine ⟨fun number => ?_, fun opcode complete => complete.decode_word, fun number turns => ?_⟩
  · exact ⟨Opcode.reads_decode number, (Opcode.masked_eq_decode number).symm⟩
  · intro other
    have same : Opcode.decode other = Opcode.decode number := Opcode.decode_add_mul number turns
    have described : describe other = describe number := by rw [describe, same, describe]
    refine ⟨by rw [same], fun state => ?_, described, ?_⟩
    · rw [execute, same, execute]
    · rw [describeWord, described, describeWord]

/-- The word `D1F5`, and the negative number with the same lowest sixteen bits. -/
theorem decoding_is_exact_and_periodic_below_zero :
    let opcode : Opcode := ⟨some 0xD, some 0x1, some 0xF, some 0x5⟩
    opcode.IsComplete ∧ (Operand.raw.value? opcode).map .decode = some opcode ∧
      Opcode.decode (-11787) = opcode ∧ describe (-11787) = describe 0xD1F5 := by
  intro opcode
  obtain ⟨exact_reading, recovers, periodic⟩ := decoding_is_exact_and_periodic
  have decoded : Opcode.decode (-11787) = opcode := by decide
  have complete : opcode.IsComplete := decoded ▸ (exact_reading (-11787)).1.complete
  have turned : (-11787 : Int) = 0xD1F5 + 65536 * -1 := by decide
  refine ⟨complete, recovers opcode complete, decoded, ?_⟩
  rw [turned]
  exact (periodic 0xD1F5 (-1)).2.2.1

end Chip8
