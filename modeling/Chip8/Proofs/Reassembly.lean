import Chip8.Proofs.DisassemblyViews
import Chip8.Proofs.Effects

/-!
# Reassembling a program

A line of a disassembly holds the word that was read, so the bytes of a program can be had back from
its lines.  Only an odd last byte comes back with a zero behind it.  A program is read two bytes at
a time and nothing is remembered from one pair to the next, so it may be cut after any even number
of bytes and the parts disassembled by themselves, each from its own address.
-/

namespace Chip8

/-- The bytes of the word of a line, the high byte first. -/
def Line.bytes (line : Line) : List UInt8 :=
  [UInt8.ofInt (line.word / 256), UInt8.ofInt line.word]

/-- The bytes of the words of some lines in a row. -/
def reassemble (lines : List Line) : List UInt8 :=
  lines.flatMap Line.bytes

@[simp]
theorem reassemble_nil : reassemble [] = [] := rfl

@[simp]
theorem reassemble_cons (line : Line) (lines : List Line) :
    reassemble (line :: lines) = line.bytes ++ reassemble lines := rfl

/-- The word of two bytes is written as these two bytes. -/
theorem Line.bytes_ofWord (address : Int) (high low : UInt8) :
    (Line.ofWord address (256 * high.toNat + low.toNat : Nat)).bytes = [high, low] := by
  have low_lt := low.toNat_lt
  have upper : ((256 * high.toNat + low.toNat : Nat) : Int) / 256 = high.toNat := by omega
  have lower : UInt8.ofInt ((256 * high.toNat + low.toNat : Nat) : Int) = low := by
    have kept := toNat_ofInt_uint8 (256 * high.toNat + low.toNat : Nat)
    apply UInt8.toNat_inj.mp
    omega
  simp only [Line.bytes, Line.ofWord, upper, ofInt_toNat_uint8, lower]

section Disassemble

variable (start : Int)

theorem reassemble_disassemble (rom : List UInt8) :
    reassemble (disassemble start rom) = rom ++ List.replicate (rom.length % 2) 0 := by
  fun_induction disassemble start rom with
  | case1 => rfl
  | case2 start high =>
      have written := Line.bytes_ofWord start high 0
      simp only [reassemble_cons, reassemble_nil]
      exact congrArg (· ++ []) written
  | case3 start high low rest ih =>
      have parity : (rest.length + 1 + 1) % 2 = rest.length % 2 := by omega
      rw [reassemble_cons, Line.bytes_ofWord, ih, List.length_cons, List.length_cons, parity]
      rfl

/-- Behind an even number of bytes a program is disassembled as if it began there. -/
theorem disassemble_append {front : List UInt8} (even : front.length % 2 = 0)
    (back : List UInt8) :
    disassemble start (front ++ back) =
      disassemble start front ++ disassemble (start + front.length) back := by
  fun_induction disassemble start front with
  | case1 start => simp
  | case2 start high => simp at even
  | case3 start high low rest ih =>
      have further : start + ((high :: low :: rest).length : Int) = start + 2 + rest.length := by
        simp only [List.length_cons]
        omega
      have even_rest : rest.length % 2 = 0 := by
        simp only [List.length_cons] at even
        omega
      simp only [List.cons_append, disassemble, ih even_rest, further]

end Disassemble

/-- The words of a disassembly, written with the high byte first, are the program again, with a zero
behind an odd last byte, and each word has two bytes.  Where a program is cut after an even number
of bytes, its lines are those of the first part and then those of the second part from the address
at which it starts. -/
theorem disassembly_is_lossless_and_compositional :
    (∀ (start : Int) (rom : List UInt8),
      (∀ line ∈ disassemble start rom, 0 ≤ line.word ∧ line.word < 65536) ∧
        reassemble (disassemble start rom) =
          if rom.length % 2 = 0 then rom else rom ++ [0]) ∧
    (∀ (start : Int) (front back : List UInt8), front.length % 2 = 0 →
      disassemble start (front ++ back) =
        disassemble start front ++ disassemble (start + front.length) back) := by
  refine ⟨fun start rom => ⟨?_, ?_⟩, ?_⟩
  · intro line member
    obtain ⟨address, high, low, rfl⟩ := exists_ofWord_of_mem_disassemble member
    have byte := high.toNat_lt
    have next_byte := low.toNat_lt
    simp only [Line.ofWord]
    omega
  · rw [reassemble_disassemble]
    split
    next even => rw [even, List.replicate_zero, List.append_nil]
    next odd =>
      have one : rom.length % 2 = 1 := by omega
      rw [one]
      rfl
  · intro start front back even
    exact disassemble_append start even back

/-- A program of three bytes that starts below zero, cut before its odd last byte. -/
theorem disassembly_is_lossless_and_compositional_at_odd_byte :
    reassemble (disassemble (-1) [0xA2, 0x1E, 0xC2]) = [0xA2, 0x1E, 0xC2, 0x00] ∧
      disassemble (-1) ([0xA2, 0x1E] ++ [0xC2]) =
        disassemble (-1) [0xA2, 0x1E] ++ disassemble 1 [0xC2] := by
  obtain ⟨lossless, compositional⟩ := disassembly_is_lossless_and_compositional
  exact ⟨(lossless (-1) [0xA2, 0x1E, 0xC2]).2, compositional (-1) [0xA2, 0x1E] [0xC2] rfl⟩

end Chip8
