import Mathlib.Data.Nat.Digits.Lemmas
import Chip8.Text.Numeral

/-!
# Reading numbers back

The text of an integer in a field tells the integer.  Its digits are those of the absolute value in
the base of the style; what fills the field counts for nothing, and a minus sign stands before
negative integers and no others.  A field in which every number of some range has room takes the
same number of characters for all of them.
-/

namespace Chip8
namespace Numeral

/-! ## Digits in a base -/

section Digits

variable {base value : Nat}

theorem digitsWithin_eq_reverse {fuel : Nat} (proper : 1 < base) (positive : 0 < value)
    (enough : value ≤ fuel) : digitsWithin base fuel value = (Nat.digits base value).reverse := by
  induction fuel generalizing value with
  | zero => omega
  | succ fuel ih =>
      rw [digitsWithin]
      split
      next small =>
        rw [Nat.digits_of_lt base value positive.ne' small]
        rfl
      next large =>
        have shorter : value / base < value := Nat.div_lt_self positive proper
        have more : 0 < value / base := Nat.div_pos (by omega) (by omega)
        rw [Nat.digits_def' proper positive, List.reverse_cons, ih more (by omega)]

theorem digits_eq_reverse (proper : 1 < base) (positive : 0 < value) :
    digits base value = (Nat.digits base value).reverse :=
  digitsWithin_eq_reverse proper positive le_rfl

theorem lt_of_mem_digits {digit : Nat} (proper : 1 < base) (member : digit ∈ digits base value) :
    digit < base := by
  rcases Nat.eq_zero_or_pos value with rfl | positive
  · rw [List.mem_singleton.mp member]
    omega
  · rw [digits_eq_reverse proper positive, List.mem_reverse] at member
    exact Nat.digits_lt_base proper member

theorem digits_of_lt (small : value < base) : digits base value = [value] := by
  cases value with
  | zero => rfl
  | succ value => rw [digits, digitsWithin, if_pos small]

/-- The last digit of a number stands behind the digits of the others. -/
theorem digits_eq_append (proper : 1 < base) (large : base ≤ value) :
    digits base value = digits base (value / base) ++ [value % base] := by
  have positive : 0 < value := by omega
  have more : 0 < value / base := Nat.div_pos large (by omega)
  rw [digits_eq_reverse proper positive, digits_eq_reverse proper more,
    Nat.digits_def' proper positive, List.reverse_cons]

/-- Read from the left, the digits of a number make it up. -/
theorem foldl_digits (proper : 1 < base) :
    (digits base value).foldl (fun number digit => digit + base * number) 0 = value := by
  rcases Nat.eq_zero_or_pos value with rfl | positive
  · rfl
  · rw [digits_eq_reverse proper positive, List.foldl_reverse]
    exact (Nat.ofDigits_eq_foldr base _).symm.trans (Nat.ofDigits_digits base value)

theorem length_digits_pos (proper : 1 < base) (value : Nat) : 0 < (digits base value).length := by
  rcases Nat.eq_zero_or_pos value with rfl | positive
  · exact Nat.one_pos
  · rw [digits_eq_reverse proper positive, List.length_reverse, Nat.lt_digits_length_iff proper]
    exact positive

theorem length_digits_le {count : Nat} (proper : 1 < base) (some_digit : 0 < count)
    (fits : value < base ^ count) : (digits base value).length ≤ count := by
  rcases Nat.eq_zero_or_pos value with rfl | positive
  · exact some_digit
  · rwa [digits_eq_reverse proper positive, List.length_reverse, Nat.digits_length_le_iff proper]

end Digits

/-! ## Digits as characters -/

/-- The base in which a style writes. -/
def Style.base : Style → Nat
  | .decimal => 10
  | .upperHex => 16
  | .lowerHex => 16

theorem Style.proper (style : Style) : 1 < style.base := by
  cases style <;> decide

/-- The digit that a character stands for.  Blanks and minus signs, which come before the figures in
the order of characters, stand for zero. -/
def digitOf (character : Char) : Nat :=
  if character.toNat ≤ '9'.toNat then character.toNat - '0'.toNat
  else if character.toNat ≤ 'F'.toNat then character.toNat - 'A'.toNat + 10
  else character.toNat - 'a'.toNat + 10

/-- The character of a digit in a style. -/
def Style.character : Style → Nat → Char
  | .decimal => upperDigit
  | .upperHex => upperDigit
  | .lowerHex => lowerDigit

/-- The characters of a number are those of its digits in the base of the style. -/
theorem Style.digits_eq_map (style : Style) (value : Nat) :
    style.digits value = (Numeral.digits style.base value).map style.character := by
  cases style <;> rfl

theorem Style.length_digits (style : Style) (value : Nat) :
    (style.digits value).length = (Numeral.digits style.base value).length := by
  rw [style.digits_eq_map, List.length_map]

/-- What the characters of all digits of a style have, those of a number have. -/
theorem Style.forall_mem_digits {property : Char → Prop} (style : Style)
    (each : ∀ digit < style.base, property (style.character digit)) (value : Nat) :
    ∀ character ∈ style.digits value, property character := by
  rw [style.digits_eq_map]
  exact List.forall_mem_map.mpr fun digit member =>
    each digit (lt_of_mem_digits style.proper member)

theorem Style.digitOf_character (style : Style) :
    ∀ digit < style.base, digitOf (style.character digit) = digit := by
  cases style <;> decide

theorem Style.character_ne_minus (style : Style) :
    ∀ digit < style.base, style.character digit ≠ '-' := by
  cases style <;> decide

/-- The number that the digits of a text make up. -/
def magnitude (style : Style) (text : List Char) : Nat :=
  text.foldl (fun number character => digitOf character + style.base * number) 0

theorem magnitude_digits (style : Style) (value : Nat) :
    magnitude style (style.digits value) = value := by
  have same : ∀ number, ∀ digit ∈ digits style.base value,
      digitOf (style.character digit) + style.base * number = digit + style.base * number := by
    intro number digit member
    rw [style.digitOf_character digit (lt_of_mem_digits style.proper member)]
  rw [magnitude, style.digits_eq_map, List.foldl_map]
  exact (List.foldl_ext _ _ 0 same).trans (foldl_digits style.proper)

/-- What stands for zero in front of a number does not change it. -/
theorem magnitude_append {front : List Char} (void : ∀ character ∈ front, digitOf character = 0)
    (style : Style) (text : List Char) :
    magnitude style (front ++ text) = magnitude style text := by
  induction front with
  | nil => rfl
  | cons character front ih =>
      have first := void character List.mem_cons_self
      rw [← ih fun other member => void other (List.mem_cons_of_mem character member)]
      simp only [magnitude, List.cons_append, List.foldl_cons, first, Nat.mul_zero, Nat.add_zero]

/-! ## Numbers in fields -/

theorem mem_sign_iff {value : Int} {character : Char} :
    character ∈ sign value ↔ character = '-' ∧ value < 0 := by
  unfold sign
  split <;> simp [*]

namespace Layout

variable (layout : Layout) (value : Int)

/-- The digits come last; before them are characters that stand for zero, with a minus sign among
them for negative integers. -/
theorem exists_chars_eq_append :
    ∃ front, layout.chars value = front ++ layout.style.digits value.natAbs ∧
      (∀ character ∈ front, digitOf character = 0) ∧ ('-' ∈ front ↔ value < 0) := by
  have void_sign : ∀ character ∈ sign value, digitOf character = 0 := by
    intro character member
    rw [(mem_sign_iff.mp member).1]
    rfl
  have void_filling (missing : Nat) {filler : Char} (void : digitOf filler = 0) :
      ∀ character ∈ List.replicate missing filler, digitOf character = 0 := by
    intro character member
    rw [List.eq_of_mem_replicate member, void]
  unfold chars
  dsimp only
  generalize layout.width - (sign value ++ layout.style.digits value.natAbs).length = missing
  split
  · refine ⟨sign value ++ List.replicate missing '0', rfl, ?_, ?_⟩
    · exact List.forall_mem_append.mpr ⟨void_sign, void_filling missing rfl⟩
    · simp [mem_sign_iff]
  · refine ⟨List.replicate missing ' ' ++ sign value, rfl, ?_, ?_⟩
    · exact List.forall_mem_append.mpr ⟨void_filling missing rfl, void_sign⟩
    · simp [mem_sign_iff]

theorem magnitude_chars : magnitude layout.style (layout.chars value) = value.natAbs := by
  obtain ⟨front, written, void, -⟩ := layout.exists_chars_eq_append value
  rw [written, magnitude_append void, magnitude_digits]

theorem minus_mem_chars_iff : '-' ∈ layout.chars value ↔ value < 0 := by
  obtain ⟨front, written, -, negative⟩ := layout.exists_chars_eq_append value
  have no_minus : ∀ character ∈ layout.style.digits value.natAbs, character ≠ '-' :=
    layout.style.forall_mem_digits layout.style.character_ne_minus value.natAbs
  rw [written, List.mem_append, negative, or_iff_left]
  exact fun minus => no_minus '-' minus rfl

/-- Different integers have different texts in one field. -/
theorem chars_injective : Function.Injective layout.chars := by
  intro value other same
  have magnitudes := layout.magnitude_chars value
  have signs := layout.minus_mem_chars_iff value
  rw [same, layout.magnitude_chars] at magnitudes
  rw [same, layout.minus_mem_chars_iff] at signs
  omega

theorem length_chars :
    (layout.chars value).length =
      max layout.width (sign value ++ layout.style.digits value.natAbs).length := by
  unfold chars
  dsimp only
  split <;> simp only [List.length_append, List.length_replicate] <;> omega

theorem length_chars_pos : 0 < (layout.chars value).length := by
  have some_digit := length_digits_pos layout.style.proper value.natAbs
  rw [length_chars, List.length_append, layout.style.length_digits]
  omega

/-- A natural number that has room in a field fills it, if there is a field, and goes no further. -/
theorem length_chars_of_lt {value : Int} (natural : 0 ≤ value)
    (fits : value < (layout.style.base ^ max layout.width 1 : Nat)) :
    (layout.chars value).length = max layout.width 1 := by
  have no_sign : sign value = [] := if_neg (not_lt.mpr natural)
  have some_digit := length_digits_pos layout.style.proper value.natAbs
  have few := length_digits_le layout.style.proper (by omega : 0 < max layout.width 1)
    (by omega : value.natAbs < _)
  rw [length_chars, no_sign, List.nil_append, layout.style.length_digits]
  omega

/-- A natural number in a field that is filled with zeros. -/
theorem chars_natCast (width : Nat) (style : Style) (value : Nat) :
    chars ⟨true, width, style⟩ value =
      List.replicate (width - (style.digits value).length) '0' ++ style.digits value := by
  have no_sign : sign (value : Int) = [] := if_neg (by omega)
  simp only [chars, no_sign, List.nil_append, Int.natAbs_natCast, if_true]

/-- In a field filled with zeros the last digit stands behind a narrower field of the others. -/
theorem chars_succ {width : Nat} (some_width : 0 < width) (style : Style) (value : Nat) :
    chars ⟨true, width + 1, style⟩ value =
      chars ⟨true, width, style⟩ (value / style.base : Nat) ++
        [style.character (value % style.base)] := by
  rw [chars_natCast, chars_natCast, style.digits_eq_map, style.digits_eq_map]
  rcases Nat.lt_or_ge value style.base with small | large
  · -- The one digit of zero is a zero like those that fill the field.
    have zero : style.character 0 = '0' := by cases style <;> rfl
    obtain ⟨width, rfl⟩ := Nat.exists_eq_succ_of_ne_zero some_width.ne'
    rw [Nat.div_eq_of_lt small, Nat.mod_eq_of_lt small, digits_of_lt small,
      digits_of_lt (Nat.zero_lt_of_lt style.proper)]
    simp [zero, List.replicate_succ']
  · rw [digits_eq_append style.proper large]
    simp

end Layout

/-! ## Capital hexadecimal digits -/

/-- The last digit stands behind a narrower field of the others. -/
theorem hex_succ {width : Nat} (some_width : 0 < width) {value : Int} (natural : 0 ≤ value) :
    hex (width + 1) value = hex width (value / 16) ++ hex 1 (value % 16) := by
  obtain ⟨value, rfl⟩ := Int.eq_ofNat_of_zero_le natural
  have small : value % 16 < Style.upperHex.base := Nat.mod_lt value (by decide)
  have single : Layout.chars ⟨true, 1, .upperHex⟩ (value % 16 : Nat) =
      [Style.upperHex.character (value % 16)] := by
    rw [Layout.chars_natCast, Style.digits_eq_map, digits_of_lt small]
    rfl
  simp only [hex, ← String.ofList_append]
  rw [Layout.chars_succ some_width]
  exact congrArg (fun digit => String.ofList (_ ++ digit)) single.symm

/-- There is at least one digit, in a field or out of it. -/
theorem hex_zero (value : Int) : hex 0 value = hex 1 value := by
  have some_digit := length_digits_pos Style.upperHex.proper value.natAbs
  have filled : 1 - (sign value ++ Style.upperHex.digits value.natAbs).length = 0 := by
    rw [List.length_append, Style.length_digits]
    omega
  simp only [hex, Layout.chars, filled, Nat.zero_sub]

/-- A text of so many capital hexadecimal digits, which make up a number. -/
structure IsCapitalHex (text : String) (places : Nat) (value : Int) : Prop where
  length : text.length = places
  digits : ∀ character ∈ text.toList, character ∈ "0123456789ABCDEF".toList
  value : magnitude .upperHex text.toList = value

theorem isCapitalHex_hex {width : Nat} (some_width : 0 < width) {value : Int}
    (natural : 0 ≤ value) (fits : value < 16 ^ width) :
    IsCapitalHex (hex width value) width value := by
  obtain ⟨value, rfl⟩ := Int.eq_ofNat_of_zero_le natural
  have width_eq : max width 1 = width := by omega
  refine ⟨?_, ?_, ?_⟩
  · have filled := Layout.length_chars_of_lt ⟨true, width, .upperHex⟩ natural
      (by rw [width_eq]; exact_mod_cast fits)
    rw [hex, String.length_ofList, filled, width_eq]
  · rw [hex, String.toList_ofList, Layout.chars_natCast]
    intro character member
    rcases List.mem_append.mp member with filling | digit
    · rw [List.eq_of_mem_replicate filling]
      decide
    · exact Style.upperHex.forall_mem_digits (by decide) value character digit
  · rw [hex, String.toList_ofList, Layout.magnitude_chars ⟨true, width, .upperHex⟩]
    rfl

end Numeral
end Chip8
