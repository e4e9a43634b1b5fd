import Chip8.Text.Numeral

/-!
# Progress bars

A bar for a batch of steps.  Progress is shown in strides: an update reports the steps since the
last report once they make a whole stride, or once the batch is complete.  The bar keeps the
signals that it has sent to the screen.
-/

namespace Chip8

/-- What a bar tells the screen. -/
inductive BarSignal where
  /-- Move on by some steps. -/
  | advance (steps : Int)
  /-- Take the bar away. -/
  | close
  deriving DecidableEq, Repr

/-- Names that no further option has: the total and the other options have them, and the unit, which
a bar sets itself and which a caller cannot set beside it. -/
def takenNames : List String :=
  ["n", "print_rate", "desc", "unit"]

/-- The names of further options. -/
structure FurtherOptions where
  /-- The names. -/
  names : List String
  /-- None of the names is taken. -/
  free : ∀ name ∈ names, name ∉ takenNames
  deriving DecidableEq, Repr

namespace FurtherOptions

/-- No further options. -/
def none : FurtherOptions :=
  ⟨[], by simp⟩

/-- The further options among some names. -/
def ofList (names : List String) : FurtherOptions :=
  ⟨names.filter (· ∉ takenNames), fun _ member => of_decide_eq_true (List.mem_filter.mp member).2⟩

instance : Coe (List String) FurtherOptions :=
  ⟨ofList⟩

end FurtherOptions

/-- What a caller may choose about a bar. -/
structure BarOptions where
  /-- The stride, chosen from the total when absent. -/
  stride : Option Int
  /-- The caption, made from the total when absent. -/
  caption : Option String
  /-- The further options, handed on to the screen. -/
  further : FurtherOptions
  deriving DecidableEq, Repr

/-- A progress bar. -/
structure ProgressBar where
  /-- The number of steps in the batch. -/
  total : Int
  /-- The caption. -/
  caption : String
  /-- The names of further options, in alphabetical order. -/
  further : List String
  /-- The number of steps that make a report. -/
  stride : Int
  /-- The number of steps reported so far. -/
  reported : Int
  /-- The signals sent, latest first. -/
  sent : List BarSignal
  deriving DecidableEq, Repr

namespace ProgressBar

/-- The unit that bars count in. -/
def unit : String := "instr"

/-- Options that the bar decides itself, whatever the caller says. -/
def reserved : List String :=
  ["total", "mininterval", "maxinterval", "miniters"]

/-- The stride of a batch: a twentieth of it, at least one step and at most fifty, unless chosen;
a chosen stride is brought between one and the total. -/
def strideOf (total : Int) : Option Int → Int
  | none => max 1 (min (total / 20) 50)
  | some stride => max 1 (min stride total)

/-- The caption used when the caller gives none. -/
def defaultCaption (total : Int) : String :=
  "Running (" ++ Numeral.decimalGrouped total ++ " instructions)"

/-- A bar for a batch of `total` steps. -/
def start (total : Int) (options : BarOptions) : ProgressBar where
  total := total
  caption := options.caption.getD (defaultCaption total)
  further := (options.further.names.filter (!reserved.contains ·)).mergeSort
  stride := strideOf total options.stride
  reported := 0
  sent := []

/-- Tell the bar how many steps have been done. -/
def update (bar : ProgressBar) (done : Int) : ProgressBar :=
  if bar.stride ≤ done - bar.reported ∨ bar.total ≤ done then
    { bar with reported := done, sent := .advance (done - bar.reported) :: bar.sent }
  else
    bar

/-- Take the bar away; steps that make no whole stride stay unreported. -/
def close (bar : ProgressBar) : ProgressBar :=
  { bar with sent := .close :: bar.sent }

/-- The signals sent, in order. -/
def signals (bar : ProgressBar) : List BarSignal :=
  bar.sent.reverse

/-- The steps of each report, in order. -/
def advances (bar : ProgressBar) : List Int :=
  bar.signals.filterMap fun
    | .advance steps => some steps
    | .close => none

/-- Whether the bar has been taken away. -/
def isClosed (bar : ProgressBar) : Bool :=
  bar.signals.contains .close

end ProgressBar
end Chip8
