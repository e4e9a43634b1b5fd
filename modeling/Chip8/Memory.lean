/-!
# Memory

4096 cells of one byte.  Addresses are taken modulo the size, so that a read or a write past the
last cell goes on at the first.  Words are two bytes, the high one first.
-/

namespace Chip8

/-- The cells of the machine. -/
structure Memory where
  /-- One byte for each address below 4096. -/
  cells : Vector UInt8 4096
  deriving DecidableEq, Repr

namespace Memory

/-- The address where programs start. -/
def programStart : Nat := 0x200

/-- The number of bytes from the program start to the end of memory. -/
def programCapacity : Nat := 4096 - programStart

/-- Every cell is zero. -/
def blank : Memory :=
  ⟨Vector.replicate 4096 0⟩

/-- The byte at an address. -/
def read (memory : Memory) (address : Nat) : UInt8 :=
  memory.cells[address % 4096]

/-- Replace the byte at an address. -/
def write (memory : Memory) (address : Nat) (byte : UInt8) : Memory :=
  ⟨memory.cells.set (address % 4096) byte⟩

/-- Replace the bytes from an address on. -/
def writeAll (memory : Memory) (address : Nat) : List UInt8 → Memory
  | [] => memory
  | byte :: bytes => (memory.write address byte).writeAll (address + 1) bytes

/-- The word at an address. -/
def word (memory : Memory) (address : Nat) : Nat :=
  256 * (memory.read address).toNat + (memory.read (address + 1)).toNat

/-- The glyphs of the sixteen hexadecimal digits, five rows each. -/
def font : List UInt8 :=
  [0xF0, 0x90, 0x90, 0x90, 0xF0,
   0x20, 0x60, 0x20, 0x20, 0x70,
   0xF0, 0x10, 0xF0, 0x80, 0xF0,
   0xF0, 0x10, 0xF0, 0x10, 0xF0,
   0x90, 0x90, 0xF0, 0x10, 0x10,
   0xF0, 0x80, 0xF0, 0x10, 0xF0,
   0xF0, 0x80, 0xF0, 0x90, 0xF0,
   0xF0, 0x10, 0x20, 0x40, 0x40,
   0xF0, 0x90, 0xF0, 0x90, 0xF0,
   0xF0, 0x90, 0xF0, 0x10, 0xF0,
   0xF0, 0x90, 0xF0, 0x90, 0x90,
   0xE0, 0x90, 0xE0, 0x90, 0xE0,
   0xF0, 0x80, 0x80, 0x80, 0xF0,
   0xE0, 0x90, 0x90, 0x90, 0xE0,
   0xF0, 0x80, 0xF0, 0x80, 0xF0,
   0xF0, 0x80, 0xF0, 0x80, 0x80]

/-- The number of rows of a glyph. -/
def glyphHeight : Nat := 5

/-- Blank memory with the font at its start. -/
def initial : Memory :=
  blank.writeAll 0 font

theorem read_write (memory : Memory) (target address : Nat) (byte : UInt8) :
    (memory.write target byte).read address =
      if target % 4096 = address % 4096 then byte else memory.read address := by
  simp [read, write, Vector.getElem_set]

@[simp]
theorem read_mod (memory : Memory) (address : Nat) :
    memory.read (address % 4096) = memory.read address := by
  simp [read]

@[simp]
theorem write_mod (memory : Memory) (address : Nat) (byte : UInt8) :
    memory.write (address % 4096) byte = memory.write address byte := by
  simp [write]

@[simp]
theorem write_read (memory : Memory) (address : Nat) :
    memory.write address (memory.read address) = memory := by
  simp [write, read]

/-- Two blocks of bytes are written one behind the other. -/
theorem writeAll_append (memory : Memory) (start : Nat) (front back : List UInt8) :
    memory.writeAll start (front ++ back) =
      (memory.writeAll start front).writeAll (start + front.length) back := by
  induction front generalizing memory start with
  | nil => rfl
  | cons byte front ih =>
    rw [List.cons_append, writeAll, ih, writeAll, List.length_cons]
    congr 1
    omega

/-- Only the cell of the start counts, not the address that names it. -/
theorem writeAll_congr {start start' : Nat} (same : start % 4096 = start' % 4096)
    (memory : Memory) (bytes : List UInt8) :
    memory.writeAll start bytes = memory.writeAll start' bytes := by
  induction bytes generalizing memory start start' with
  | nil => rfl
  | cons byte bytes ih =>
    have next : (start + 1) % 4096 = (start' + 1) % 4096 := by omega
    rw [writeAll, ih next, ← write_mod, same, write_mod, writeAll]

/-- Writing the bytes that are there changes nothing. -/
theorem writeAll_eq_self {memory : Memory} {start : Nat} {bytes : List UInt8}
    (there : ∀ (k : Nat) (inside : k < bytes.length), bytes[k] = memory.read (start + k)) :
    memory.writeAll start bytes = memory := by
  induction bytes generalizing start with
  | nil => rfl
  | cons byte bytes ih =>
    have first : byte = memory.read start := there 0 (Nat.zero_lt_succ _)
    rw [writeAll, first, write_read]
    apply ih
    intro k inside
    have rest := there (k + 1) (Nat.succ_lt_succ inside)
    rwa [show start + (k + 1) = start + 1 + k by omega] at rest

/-- Cells outside a block of bytes keep what they held. -/
theorem read_writeAll_outside {memory : Memory} {start address : Nat} {bytes : List UInt8}
    (outside : ∀ k < bytes.length, (start + k) % 4096 ≠ address % 4096) :
    (memory.writeAll start bytes).read address = memory.read address := by
  induction bytes generalizing memory start with
  | nil => rfl
  | cons byte bytes ih =>
    have head : start % 4096 ≠ address % 4096 := outside 0 (by simp)
    rw [writeAll, ih, read_write, if_neg head]
    intro k inside
    have tail := outside (k + 1) (by simpa using inside)
    rwa [show start + 1 + k = start + (k + 1) by omega]

/-- A block of bytes that fits into memory is read back. -/
theorem read_writeAll_inside {memory : Memory} {start k : Nat} {bytes : List UInt8}
    (fits : bytes.length ≤ 4096) (inside : k < bytes.length) :
    (memory.writeAll start bytes).read (start + k) = bytes[k] := by
  induction bytes generalizing memory start k with
  | nil => simp at inside
  | cons byte bytes ih =>
    simp only [List.length_cons] at fits inside
    cases k with
    | zero =>
      have behind : ∀ k < bytes.length, (start + 1 + k) % 4096 ≠ (start + 0) % 4096 := by
        intro k inside
        omega
      rw [writeAll, read_writeAll_outside behind, read_write]
      simp
    | succ k =>
      have rest : (((memory.write start byte).writeAll (start + 1) bytes).read (start + 1 + k)) =
          bytes[k] := ih (by omega) (by omega)
      rw [writeAll, show start + (k + 1) = start + 1 + k by omega, rest]
      rfl

@[ext]
theorem ext {left right : Memory}
    (same : ∀ address < 4096, left.read address = right.read address) : left = right := by
  cases left with
  | mk left =>
    cases right with
    | mk right =>
      congr
      apply Vector.ext
      intro address inside
      simpa [read, Nat.mod_eq_of_lt inside] using same address inside

end Memory
end Chip8
