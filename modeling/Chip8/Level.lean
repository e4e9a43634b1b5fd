import Chip8.Text.Uppercase

/-!
# Severity levels

The four severities of log messages in ascending order, and their names.
-/

namespace Chip8

/-- The severity of a message. -/
inductive Level where
  /-- Details for the developer of a program. -/
  | debug
  /-- News. -/
  | info
  /-- Something unexpected that did not stop the machine. -/
  | warning
  /-- A failure. -/
  | error
  deriving DecidableEq, Repr

namespace Level

/-- Every level in ascending order. -/
def all : List Level :=
  [.debug, .info, .warning, .error]

/-- The name of a level. -/
def name : Level → String
  | .debug => "DEBUG"
  | .info => "INFO"
  | .warning => "WARNING"
  | .error => "ERROR"

/-- The position of a level in the ascending order. -/
def rank : Level → Nat
  | .debug => 0
  | .info => 1
  | .warning => 2
  | .error => 3

/-- The level with a given name. -/
def ofName? (name : String) : Option Level :=
  all.find? fun level => level.name == name

/-- The number of the terminal colour of a level. -/
def colour : Level → String
  | .debug => "36"
  | .info => "32"
  | .warning => "33"
  | .error => "31"

@[simp]
theorem ofName?_name (level : Level) : ofName? level.name = some level := by
  cases level <;> rfl

end Level
end Chip8
