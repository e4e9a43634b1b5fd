/-!
# The display

A screen of 64 columns and 32 rows of pixels, the origin at the top left.  Coordinates wrap around
all edges.  Drawing toggles pixels; a toggle that puts out a lit pixel is a collision.  A sprite is
a list of bytes, one for each row of eight pixels, the highest bit at the left.
-/

namespace Chip8

/-- The pixels of the screen, row by row. -/
structure Display where
  /-- The rows from top to bottom, each from left to right. -/
  rows : Vector (Vector Bool 64) 32
  deriving DecidableEq, Repr

namespace Display

/-- The column of a horizontal coordinate. -/
def column (x : Int) : Fin 64 :=
  ⟨(x % 64).toNat, by omega⟩

/-- The row of a vertical coordinate. -/
def row (y : Int) : Fin 32 :=
  ⟨(y % 32).toNat, by omega⟩

/-- Whether the pixel in a column and row is lit. -/
def pixel (display : Display) (column : Fin 64) (row : Fin 32) : Bool :=
  display.rows[row][column]

/-- The display with the given pixels. -/
def ofFn (pixels : Fin 64 → Fin 32 → Bool) : Display :=
  ⟨Vector.ofFn fun row => Vector.ofFn fun column => pixels column row⟩

/-- No pixel is lit. -/
def blank : Display :=
  ofFn fun _ _ => false

/-- Toggle the pixel at a point and tell whether it was lit. -/
def toggle (display : Display) (x y : Int) : Display × Bool :=
  let lit := display.pixel (column x) (row y)
  let line := display.rows[row y].set (column x) (!lit)
  (⟨display.rows.set (row y) line⟩, lit)

/-- The bit of a sprite in a row, counted from the top, and a column, counted from the left. -/
def spriteBit (sprite : List UInt8) (row column : Nat) : Bool :=
  match sprite[row]? with
  | some byte => column < 8 && byte.toNat.testBit (7 - column)
  | none => false

/-- The pixels that a sprite with its corner at a point covers. -/
def mask (sprite : List UInt8) (x y : Int) : Display :=
  ofFn fun column row =>
    spriteBit sprite (((row.val : Int) - y) % 32).toNat (((column.val : Int) - x) % 64).toNat

/-- Pixels lit in exactly one of two displays. -/
def xor (left right : Display) : Display :=
  ofFn fun column row => left.pixel column row ^^ right.pixel column row

/-- Whether some pixel is lit in both displays. -/
def meets (left right : Display) : Bool :=
  (List.finRange 32).any fun row =>
    (List.finRange 64).any fun column => left.pixel column row && right.pixel column row

/-- Toggle the pixels of a sprite and tell whether one of them was lit. -/
def draw (display : Display) (sprite : List UInt8) (x y : Int) : Display × Bool :=
  let covered := mask sprite x y
  (display.xor covered, display.meets covered)

@[simp]
theorem pixel_ofFn (pixels : Fin 64 → Fin 32 → Bool) (column : Fin 64) (row : Fin 32) :
    (ofFn pixels).pixel column row = pixels column row := by
  simp [pixel, ofFn]

@[ext]
theorem ext {left right : Display}
    (same : ∀ column row, left.pixel column row = right.pixel column row) : left = right := by
  cases left with
  | mk left =>
    cases right with
    | mk right =>
      congr
      apply Vector.ext
      intro row row_lt
      apply Vector.ext
      intro column column_lt
      exact same ⟨column, column_lt⟩ ⟨row, row_lt⟩

@[simp]
theorem pixel_xor (left right : Display) (column : Fin 64) (row : Fin 32) :
    (left.xor right).pixel column row = (left.pixel column row ^^ right.pixel column row) := by
  simp [xor]

theorem meets_iff (left right : Display) :
    left.meets right = true ↔
      ∃ column row, left.pixel column row = true ∧ right.pixel column row = true := by
  simp only [meets, List.any_eq_true, List.mem_finRange, true_and, Bool.and_eq_true]
  exact ⟨fun ⟨row, column, lit⟩ => ⟨column, row, lit⟩, fun ⟨column, row, lit⟩ => ⟨row, column, lit⟩⟩

end Display
end Chip8
