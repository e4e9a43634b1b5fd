import Chip8.Disassembly
import Chip8.Proofs.PrintableTexts

/-!
# Views of a disassembly

A disassembly reads the whole program to list its lines, and only two bytes of it to show a line
that is asked for by number or by address.  The line with a number is the first of what follows the
bytes of the lines before it, so both ways of reading show the same, down to an odd last byte.  As
text a line has three columns and no line break, so a listing can be cut into its lines again.
-/

namespace Chip8

/-! ## Words -/

/-- Describing a word fails in one way only, for want of an instruction. -/
theorem describe_ok_or_unknown (word : Int) :
    (∃ mnemonic, describe word = .ok mnemonic) ∨
      describe word = .error (.invalidOpcode (some (word % 65536))) := by
  rcases unknown_or_decodes word with unknown | ⟨entry, mnemonic, instruction, decodes⟩
  · exact .inr (describe_of_unknown unknown)
  · exact .inl ⟨mnemonic, describe_of_decodes decodes⟩

namespace Line

/-- What a line shows of its word: the mnemonic, or that the word is not an instruction. -/
inductive Shows (line : Line) : Prop
  | mnemonic (described : describe line.word = .ok line.mnemonic) (valid : line.valid = true)
  | unknown (refused : describe line.word = .error (.invalidOpcode (some line.word)))
      (text : line.mnemonic = (Fault.invalidOpcode (some line.word)).message)
      (invalid : line.valid = false)

theorem shows_ofWord (address : Int) {word : Int} (inside : word % 65536 = word) :
    (ofWord address word).Shows := by
  rcases describe_ok_or_unknown word with ⟨mnemonic, described⟩ | refused
  · refine .mnemonic ?_ ?_ <;> simp only [ofWord, describeWord, described]
  · rw [inside] at refused
    refine .unknown ?_ ?_ ?_ <;> simp only [ofWord, describeWord, refused]

theorem Shows.isPlain_mnemonic {line : Line} (shows : line.Shows) :
    Printable.IsPlain line.mnemonic.toList := by
  cases shows with
  | mnemonic described =>
      rcases unknown_or_decodes line.word with unknown | ⟨entry, mnemonic, instruction, decodes⟩
      · rw [describe_of_unknown unknown] at described
        cases described
      · rw [describe_of_decodes decodes] at described
        cases described
        exact Printable.isPlain_mnemonic decodes
  | unknown _ text =>
      rw [text]
      exact Printable.isPlain_invalidOpcode line.word

/-- A text shows a line in columns that two blanks keep apart: the address in hexadecimal, at least
three places wide, the word in four capital hexadecimal digits, and what stands for the word.  There
is no line break in it. -/
structure InColumns (line : Line) (text : String) : Prop where
  columns : ∃ word, Numeral.IsCapitalHex word 4 line.word ∧
    text = "0x" ++ Numeral.hex 3 line.address ++ "  " ++ word ++ "  " ++ line.mnemonic
  single : '\n' ∉ text.toList

theorem Shows.inColumns_text {line : Line} (shows : line.Shows) (low : 0 ≤ line.word)
    (high : line.word < 65536) : line.InColumns line.text where
  columns := ⟨_, Numeral.isCapitalHex_hex (by decide) low high, rfl⟩
  single := Printable.newline_not_mem_of_isPlain
    (Printable.isPlain_columns shows.isPlain_mnemonic line.address line.word)

end Line

/-! ## Reading two bytes alone -/

section Disassemble

variable (start : Int) (rom : List UInt8)

theorem length_disassemble : (disassemble start rom).length = (rom.length + 1) / 2 := by
  fun_induction disassemble start rom with
  | case1 => rfl
  | case2 start high => simp
  | case3 start high low rest ih =>
      simp only [List.length_cons, ih]
      omega

/-- A line is the first of the two bytes behind those of the lines before it. -/
theorem getElem?_disassemble (k : Nat) :
    (disassemble start rom)[k]? =
      (disassemble (start + 2 * k) ((rom.drop (2 * k)).take 2)).head? := by
  fun_induction disassemble start rom generalizing k with
  | case1 => simp [disassemble]
  | case2 start high =>
      cases k with
      | zero => simp [disassemble]
      | succ k => simp [disassemble, Nat.mul_add]
  | case3 start high low rest ih =>
      cases k with
      | zero => simp [disassemble]
      | succ k =>
          have further : start + 2 * ((k + 1 : Nat) : Int) = start + 2 + 2 * (k : Int) := by omega
          rw [List.getElem?_cons_succ, ih, further]
          rfl

variable {start rom}

theorem address_of_head? {line : Line} (first : (disassemble start rom).head? = some line) :
    line.address = start := by
  fun_cases disassemble start rom with
  | case1 => simp [disassemble] at first
  | case2 =>
      obtain rfl := Option.some.inj first
      rfl
  | case3 =>
      obtain rfl := Option.some.inj first
      rfl

/-- Every line holds the word of two bytes. -/
theorem exists_ofWord_of_mem_disassemble {line : Line} (member : line ∈ disassemble start rom) :
    ∃ (address : Int) (high low : UInt8),
      line = .ofWord address (256 * high.toNat + low.toNat : Nat) := by
  fun_induction disassemble start rom with
  | case1 => cases member
  | case2 start high => exact ⟨start, high, 0, List.mem_singleton.mp member⟩
  | case3 start high low rest ih =>
      rcases List.mem_cons.mp member with first | later
      · exact ⟨start, high, low, first⟩
      · exact ih later

theorem shows_of_mem_disassemble {line : Line} (member : line ∈ disassemble start rom) :
    line.Shows := by
  obtain ⟨address, high, low, rfl⟩ := exists_ofWord_of_mem_disassemble member
  have byte := high.toNat_lt
  have next_byte := low.toNat_lt
  exact Line.shows_ofWord address (by omega)

theorem inColumns_of_mem_disassemble {line : Line} (member : line ∈ disassemble start rom) :
    line.InColumns line.text := by
  have shows := shows_of_mem_disassemble member
  obtain ⟨address, high, low, rfl⟩ := exists_ofWord_of_mem_disassemble member
  have byte := high.toNat_lt
  have next_byte := low.toNat_lt
  have word : (Line.ofWord address (256 * high.toNat + low.toNat : Nat)).word =
      (256 * high.toNat + low.toNat : Nat) := rfl
  exact shows.inColumns_text (by omega) (by omega)

end Disassemble

namespace Disassembly

variable (disassembly : Disassembly)

theorem length_lines : disassembly.lines.length = disassembly.size :=
  length_disassemble disassembly.start disassembly.rom

theorem getElem?_lines (k : Nat) : disassembly.lines[k]? = disassembly.lineAt k :=
  getElem?_disassemble disassembly.start disassembly.rom k

variable {disassembly}

theorem address_of_lineAt {k : Nat} {line : Line} (shown : disassembly.lineAt k = some line) :
    line.address = disassembly.start + 2 * k :=
  address_of_head? shown

/-! ## Lines by number -/

theorem get_of_position {index : Int} {k : Nat}
    (position : (if index < 0 then index + disassembly.size else index) = k) :
    disassembly.get index =
      disassembly.lines[k]?.elim (.error (.noSuchLine k)) .ok := by
  have not_negative : ¬(k : Int) < 0 := by omega
  simp only [get, position, if_neg not_negative, Int.toNat_natCast, getElem?_lines]
  cases disassembly.lineAt k <;> rfl

theorem get_of_lt {index : Int} {k : Nat} (inside : k < disassembly.lines.length)
    (position : index = k ∨ index = (k : Int) - disassembly.lines.length) :
    disassembly.get index = .ok disassembly.lines[k] := by
  have place : (if index < 0 then index + disassembly.size else index) = k := by
    rw [← length_lines]
    split <;> omega
  rw [get_of_position place, List.getElem?_eq_getElem inside]
  rfl

theorem get_of_outside {index : Int}
    (outside : index < -disassembly.lines.length ∨ disassembly.lines.length ≤ index) :
    disassembly.get index =
      .error (.noSuchLine (if index < 0 then index + disassembly.lines.length else index)) := by
  rw [length_lines] at outside ⊢
  rcases outside with before | behind
  · have negative : index < 0 := by omega
    have short : index + disassembly.size < 0 := by omega
    simp only [get, if_pos negative, if_pos short]
  · have position :
        (if index < 0 then index + (disassembly.size : Int) else index) = index.toNat := by
      split <;> omega
    have none_left : disassembly.lines.length ≤ index.toNat := by
      rw [length_lines]
      omega
    rw [get_of_position position, position, List.getElem?_eq_none none_left]
    rfl

/-! ## Lines by address -/

theorem at?_start_add (disassembly : Disassembly) (k : Nat) :
    disassembly.at? (disassembly.start + 2 * k) = disassembly.lineAt k := by
  have distance : disassembly.start + 2 * (k : Int) - disassembly.start = 2 * k := by omega
  have aligned : ¬(2 * (k : Int) < 0 ∨ 2 * (k : Int) % 2 ≠ 0) := by omega
  have position : (2 * (k : Int) / 2).toNat = k := by omega
  simp only [at?, distance, if_neg aligned, position]

theorem at?_eq_some_iff {address : Int} {line : Line} :
    disassembly.at? address = some line ↔
      line ∈ disassembly.lines ∧ line.address = address := by
  constructor
  · intro shown
    rw [at?] at shown
    split at shown
    next => cases shown
    next aligned =>
      refine ⟨List.mem_of_getElem? ((disassembly.getElem?_lines _).trans shown), ?_⟩
      rw [address_of_lineAt shown]
      omega
  · rintro ⟨member, rfl⟩
    obtain ⟨k, shown⟩ := List.mem_iff_getElem?.mp member
    rw [getElem?_lines] at shown
    rw [address_of_lineAt shown, at?_start_add, shown]

/-! ## The listing -/

/-- A listing that is cut at its line breaks falls into the texts of its lines. -/
theorem splitOn_listing (some_line : disassembly.lines ≠ []) :
    disassembly.listing.toList.splitOn '\n' = disassembly.lines.map fun line => line.text.toList := by
  have single : ∀ text ∈ (disassembly.lines.map Line.text).map String.toList, '\n' ∉ text := by
    rw [List.map_map]
    exact List.forall_mem_map.mpr fun line member => (inColumns_of_mem_disassemble member).single
  rw [listing, String.toList_intercalate]
  refine (List.splitOn_intercalate '\n' single ?_).trans List.map_map
  simpa using some_line

/-- Listing the lines, asking for one by its number and asking for one by its address show the same.
There is a line for every two bytes begun, and each has a mnemonic or says that its word is not an
instruction.  The listing has the address, the word and this of each line in columns, with line
breaks between the lines and nowhere else. -/
theorem views_agree (disassembly : Disassembly) :
    let lines := disassembly.lines
    (∀ line ∈ lines, line.Shows) ∧
      disassembly.size = lines.length ∧ lines.length = (disassembly.rom.length + 1) / 2 ∧
      (∀ (k : Nat) (inside : k < lines.length),
        lines[k].address = disassembly.start + 2 * k ∧
          disassembly.get k = .ok lines[k] ∧
          disassembly.get ((k : Int) - lines.length) = .ok lines[k]) ∧
      (∀ index : Int, index < -lines.length ∨ lines.length ≤ index →
        disassembly.get index =
          .error (.noSuchLine (if index < 0 then index + lines.length else index))) ∧
      (∀ address : Int,
        (∀ line, disassembly.at? address = some line ↔
          line ∈ lines ∧ line.address = address) ∧
        (disassembly.at? address = none ↔ ∀ line ∈ lines, line.address ≠ address)) ∧
      disassembly.listing = "\n".intercalate (lines.map Line.text) ∧
      (∀ line ∈ lines, line.InColumns line.text) ∧
      (lines ≠ [] → disassembly.listing.toList.splitOn '\n' =
        lines.map fun line => line.text.toList) := by
  intro lines
  refine ⟨fun line => shows_of_mem_disassemble, disassembly.length_lines.symm,
    length_disassemble _ _, ?_, fun index => get_of_outside, ?_, rfl,
    fun line => inColumns_of_mem_disassemble, splitOn_listing⟩
  · intro k inside
    exact ⟨address_of_lineAt (disassembly.getElem?_lines k ▸ List.getElem?_eq_getElem inside),
      get_of_lt inside (.inl rfl), get_of_lt inside (.inr rfl)⟩
  · intro address
    refine ⟨fun line => at?_eq_some_iff, ?_⟩
    simp only [Option.eq_none_iff_forall_ne_some, ne_eq, at?_eq_some_iff, not_and, lines]

/-- The odd last byte of a program that starts below zero is found by number and by address. -/
theorem views_agree_on_odd_byte_above_negative_start :
    let disassembly : Disassembly := ⟨[0x60, 0x05, 0xFF], -1⟩
    ∃ line, disassembly.get (-1) = .ok line ∧ line.address = 1 ∧
      disassembly.at? 1 = some line ∧ disassembly.at? 2 = none ∧
      disassembly.get (-3) = .error (.noSuchLine (-1)) := by
  intro disassembly
  obtain ⟨-, -, counted, found, outside, at_address, -⟩ := views_agree disassembly
  have length : disassembly.lines.length = 2 := counted.trans (by decide)
  have inside : 1 < disassembly.lines.length := by omega
  obtain ⟨address, -, from_end⟩ := found 1 inside
  refine ⟨_, by simpa [length] using from_end, address, ?_, ?_, ?_⟩
  · exact ((at_address 1).1 _).mpr ⟨List.getElem_mem inside, address⟩
  · refine (at_address 2).2.mpr fun line member even => ?_
    obtain ⟨k, below, rfl⟩ := List.getElem_of_mem member
    have odd := (found k below).1
    have start : disassembly.start = -1 := rfl
    omega
  · simpa [length] using outside (-3) (by omega)

end Disassembly
end Chip8
