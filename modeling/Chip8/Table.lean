import Chip8.Template

/-!
# Instruction tables

A table lists entries in order, each with a pattern, a template for its mnemonic and an action.
Among the entries whose patterns agree with an opcode the one with the most nibbles is chosen, and
among equally specific ones the one declared first: an opcode is looked up in the bucket of its
class, which is sorted so.  An opcode without a class nibble has no bucket, so the first entry that
agrees with it is taken in declaration order.
-/

namespace Chip8

/-- An instruction of a table. -/
structure Entry (Action : Type) where
  /-- The name of the entry. -/
  name : String
  /-- The nibbles that an opcode of this instruction has. -/
  pattern : Opcode
  /-- The mnemonic. -/
  template : Template
  /-- What the instruction does. -/
  action : Action

namespace Entry

/-- Refuse an opcode that disagrees with the pattern of the entry. -/
def check {Action : Type} (entry : Entry Action) (use : Use) (opcode : Opcode) :
    Except Fault Unit :=
  if entry.pattern.agrees opcode then .ok () else .error (.wrongEntry entry.name use opcode)

/-- The mnemonic of an opcode of this instruction. -/
def describe {Action : Type} (entry : Entry Action) (opcode : Opcode) : Except Fault String := do
  entry.check .describe opcode
  entry.template.render opcode

end Entry

/-- Instructions in order of declaration. -/
structure Table (Action : Type) where
  /-- The entries in order of declaration. -/
  entries : List (Entry Action)

namespace Table

variable {Action : Type}

/-- Put an entry into a list before the first one that is no more specific. -/
def insert (entry : Entry Action) : List (Entry Action) → List (Entry Action)
  | [] => [entry]
  | head :: tail =>
    if head.pattern.specificity ≤ entry.pattern.specificity then entry :: head :: tail
    else head :: insert entry tail

/-- The more specific entries first, and equally specific ones in the order that they are in. -/
def sort (entries : List (Entry Action)) : List (Entry Action) :=
  entries.foldr insert []

/-- The entries that opcodes of a class can agree with, sorted: those whose patterns have its nibble
or leave it out. -/
def bucket (table : Table Action) (nibble : Int) : List (Entry Action) :=
  sort (table.entries.filter fun entry => entry.pattern.first.all (· == nibble))

/-- The entry chosen for an opcode: the first that agrees with it in the bucket of its class nibble, or
in order of declaration if it has none. -/
def select (table : Table Action) (opcode : Opcode) : Option (Entry Action) :=
  match opcode.first with
  | none => table.entries.find? (·.pattern.agrees opcode)
  | some nibble => (table.bucket nibble).find? (·.pattern.agrees opcode)

/-- The entry chosen for an opcode whose class nibble, if present, is one of the sixteen. -/
def find (table : Table Action) (opcode : Opcode) : Except Fault (Option (Entry Action)) :=
  match opcode.first with
  | none => .ok (table.select opcode)
  | some nibble =>
    if 0 ≤ nibble ∧ nibble < 16 then .ok (table.select opcode) else .error (.noSuchClass nibble)

/-- The entry chosen for an opcode, or the fault that there is none. -/
def lookup (table : Table Action) (opcode : Opcode) : Except Fault (Entry Action) := do
  match ← table.find opcode with
  | some entry => return entry
  | none => throw (.invalidOpcode opcode.word)

/-- The first entry with a given name. -/
def entry (table : Table Action) (name : String) : Except Fault (Entry Action) :=
  match table.entries.find? fun entry => entry.name == name with
  | some entry => .ok entry
  | none => .error (.noSuchEntry name)

/-- The mnemonic of an opcode under the entry chosen for it. -/
def describe (table : Table Action) (opcode : Opcode) : Except Fault String := do
  let entry ← table.lookup opcode
  entry.describe opcode

/-- The names of the entries in order of declaration. -/
def names (table : Table Action) : List String :=
  table.entries.map Entry.name

end Table
end Chip8
