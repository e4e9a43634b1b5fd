import Chip8.Command
import Chip8.Level
import Chip8.Text.Decimal

/-!
# Loggers

A logger prints messages at or above its level, one line each: the time since its start and the
severity, the name of the logger and the message.  It observes a machine by turning each event into
a message of its own severity.
-/

namespace Chip8

/-- What a caller may choose about a logger. -/
structure LoggerOptions where
  /-- The name shown in each line. -/
  name : String
  /-- The name of the least level to print, in any case. -/
  level : String
  /-- Whether colours are wanted. -/
  colours : Bool
  /-- Whether each line starts with the time. -/
  timestamps : Bool
  /-- Whether the lines go to a terminal. -/
  terminal : Bool
  deriving DecidableEq, Repr

/-- A printer of messages. -/
structure Logger where
  /-- The name shown in each line. -/
  name : String
  /-- The name of the least level to print. -/
  level : String
  /-- Whether severities are coloured. -/
  coloured : Bool
  /-- Whether each line starts with the time. -/
  timestamps : Bool
  /-- The reading of the clock when the logger was made, in seconds. -/
  start : Float

namespace Logger

/-- A logger made at a reading of the clock.  Colours are used on terminals only. -/
def create (options : LoggerOptions) (now : Float) : Logger where
  name := options.name
  level := Uppercase.upper options.level
  coloured := options.colours && options.terminal
  timestamps := options.timestamps
  start := now

/-- The least level to print; an unknown name counts as `INFO`. -/
def threshold (logger : Logger) : Level :=
  (Level.ofName? logger.level).getD .info

/-- Whether messages of a level are printed. -/
def prints (logger : Logger) (level : Level) : Bool :=
  logger.threshold.rank ≤ level.rank

/-- The time since the start of the logger, in brackets. -/
def timestamp (logger : Logger) (now : Float) : String :=
  if logger.timestamps then
    let seconds := Decimal.fixed .plain 2 (now - logger.start)
    "[" ++ String.ofList (Numeral.flushRight 8 seconds) ++ "s]"
  else
    ""

/-- The control sequence that sets the look of the text after it. -/
def look (code : String) : String :=
  String.ofList [Char.ofNat 27, '['] ++ code ++ "m"

/-- The severity in brackets, coloured if the logger uses colours. -/
def severity (logger : Logger) (level : Level) : String :=
  let text := "[" ++ String.ofList (Numeral.flushRight 8 level.name.toList) ++ "]"
  if logger.coloured then look level.colour ++ text ++ look "0" else text

/-- The line of a message. -/
def line (logger : Logger) (now : Float) (level : Level) (message : String) : String :=
  logger.timestamp now ++ logger.severity level ++ "[" ++ logger.name ++ "] " ++ message ++ "\n"

/-- What is printed for a message: its line, or nothing below the least level. -/
def log (logger : Logger) (now : Float) (level : Level) (message : String) : String :=
  if logger.prints level then logger.line now level message else ""

/-- What is printed for a message whose level is given by name, in any case. -/
def logNamed (logger : Logger) (now : Float) (level message : String) : Except Fault String :=
  match Level.ofName? (Uppercase.upper level) with
  | some level => .ok (logger.log now level message)
  | none => .error .noSuchLevel

end Logger

/-- What the host's clock says when an event is observed. -/
structure ClockReading where
  /-- The time, in seconds. -/
  now : Float
  /-- How long the batch took that has just ended, in seconds. -/
  elapsed : Float

/-- A message with its severity. -/
structure Notice where
  /-- The severity. -/
  level : Level
  /-- The text. -/
  message : String
  deriving DecidableEq, Repr

namespace Notice

open Numeral (decimal hex)

/-- The notice of a loaded program, with the number of its words that are no instructions. -/
def romLoaded (size invalid : Int) : Notice where
  level := .info
  message :=
    "Loaded ROM: " ++ decimal size ++ " bytes at 0x200" ++
      if invalid = 0 then "" else
        " (" ++ decimal invalid ++ " words do not decode, likely data)"

/-- The notice of a step. -/
def stepped (result : StepResult) : Notice :=
  let text := Line.columns result.address result.word result.mnemonic
  match result.status with
  | .ok => ⟨.debug, text⟩
  | .invalidOpcode => ⟨.warning, text ++ " -> " ++ result.error.getD "None"⟩
  | .notImplemented => ⟨.warning, text ++ " -> skipped, not implemented"⟩
  | .pausedAtBreakpoint => ⟨.info, "Paused at breakpoint 0x" ++ hex 3 result.address⟩
  | .waitingForKey => ⟨.debug, text ++ " -> waiting for key"⟩

/-- The nearest double to an integer. -/
def toDouble (value : Int) : Float :=
  let magnitude := Float.ofScientific value.natAbs false 0
  if value < 0 then -magnitude else magnitude

/-- Steps in a second, zero when no time has passed. -/
def rate (steps : Int) (elapsed : Float) : Float :=
  if elapsed > 0 then toDouble steps / elapsed else 0

/-- The notice of the end of a batch. -/
def batchEnded (steps : Int) (elapsed : Float) (last : String) : Notice where
  level := .info
  message :=
    "Ran " ++ decimal steps ++ " steps in " ++
      String.ofList (Decimal.fixed .plain 3 elapsed) ++ "s (" ++
      String.ofList (Decimal.fixed .thousands 0 (rate steps elapsed)) ++
      " instr/s), last status: " ++ last

/-- The notice of an event. -/
def ofEvent [RandomSource] (elapsed : Float) : Event → Notice
  | .romLoaded rom =>
    romLoaded rom.length (Disassembly.mk rom Memory.programStart).invalidCount
  | .stepped result _ => stepped result
  | .batchEnded steps last =>
    batchEnded steps elapsed (last.elim "none" fun result => result.status.name)

end Notice

namespace Logger

/-- What is printed for a notice. -/
def notify (logger : Logger) (now : Float) (notice : Notice) : String :=
  logger.log now notice.level notice.message

/-- What is printed for an event. -/
def observe [RandomSource] (logger : Logger) (clock : ClockReading) (event : Event) : String :=
  logger.notify clock.now (.ofEvent clock.elapsed event)

/-- What is printed for events in order. -/
def observeAll [RandomSource] (logger : Logger) (clock : ClockReading) (events : List Event) :
    String :=
  String.join (events.map (logger.observe clock))

end Logger
end Chip8
