import Chip8.Logger
import Chip8.Proofs.PrintableTexts
import Chip8.Proofs.RandomStream
import Chip8.Threefry

/-!
# Logs at different levels

An event has one severity and, in a log without times and colours, one line that is the same at every
level.  A logger prints the lines of the events at or above its own level, in order; so the log at a
higher level is the one at a lower level with lines left out.  The level is found by the capital form
of its name, and a name that no level has stands for news.
-/

namespace Chip8

/-! ## Names of levels -/

namespace Uppercase

theorem upperChar_toLower_of_lt :
    ∀ code < 128, upperChar (Char.ofNat code).toLower = upperChar (Char.ofNat code) := by
  decide

theorem upperChar_toLower (character : Char) :
    upperChar character.toLower = upperChar character := by
  by_cases plain : character.toNat < 128
  · have listed := upperChar_toLower_of_lt character.toNat plain
    rwa [Char.ofNat_toNat] at listed
  · -- Letters outside the first 128 characters are never made small.
    have no_capital : ¬(character.val ≥ 'A'.val ∧ character.val ≤ 'Z'.val) := by
      rintro ⟨-, small⟩
      exact plain (Nat.lt_of_le_of_lt (UInt32.le_iff_toNat_le.mp small) (by decide))
    have unchanged : character.toLower = character := dif_neg no_capital
    rw [unchanged]

theorem upper_eq_of_map_toLower (text : String) :
    upper text = String.ofList ((text.toList.map Char.toLower).flatMap upperChar) := by
  have same : (fun character : Char => upperChar character.toLower) = upperChar :=
    funext upperChar_toLower
  rw [List.flatMap_map, same, upper]

/-- Texts that are alike but for the case of their letters have one capital form. -/
theorem upper_eq_of_toLower_eq {text other : String}
    (alike : text.toList.map Char.toLower = other.toList.map Char.toLower) :
    upper text = upper other := by
  rw [upper_eq_of_map_toLower, alike, ← upper_eq_of_map_toLower]

end Uppercase

theorem Level.ofName?_eq_none {name : String} (unknown : ∀ level : Level, name ≠ level.name) :
    ofName? name = none := by
  refine List.find?_eq_none.mpr fun level _ => ?_
  rw [beq_iff_eq]
  exact fun same => unknown level same.symm

namespace Logger

variable {options : LoggerOptions} (start : Float)

theorem threshold_create_of_known {level : Level}
    (known : Uppercase.upper options.level = level.name) :
    (create options start).threshold = level := by
  rw [threshold, create, known, Level.ofName?_name, Option.getD_some]

theorem threshold_create_of_unknown
    (unknown : ∀ level : Level, Uppercase.upper options.level ≠ level.name) :
    (create options start).threshold = .info := by
  rw [threshold, create, Level.ofName?_eq_none unknown, Option.getD_none]

end Logger

/-! ## Severities and lines of events -/

/-- The severity of a step with a status. -/
def StepStatus.severity : StepStatus → Level
  | .ok => .debug
  | .waitingForKey => .debug
  | .pausedAtBreakpoint => .info
  | .invalidOpcode => .warning
  | .notImplemented => .warning

section Source

variable [RandomSource]

namespace Event

/-- The severity of an event. -/
def severity : Event → Level
  | .romLoaded _ => .info
  | .stepped result _ => result.status.severity
  | .batchEnded _ _ => .info

/-- Something that observers can be told: the report of a step is one that some machine makes. -/
def IsTold : Event → Prop
  | .stepped result _ => ∃ machine next : Machine, machine.step = .ok (result, next)
  | _ => True

/-- The line of an event in a log without times and colours. -/
def line (name : String) (clock : ClockReading) (event : Event) : String :=
  "[" ++ String.ofList (Numeral.flushRight 8 event.severity.name.toList) ++ "][" ++ name ++ "] " ++
    (Notice.ofEvent clock.elapsed event).message ++ "\n"

/-- The events of a command can be told. -/
theorem isTold_of_mem_perform (machine : Machine) (command : Command) :
    ∀ event ∈ (machine.perform command).events, event.IsTold := by
  intro event among
  cases event with
  | stepped result state =>
      have step : (result, state) ∈ (machine.perform command).steps :=
        List.mem_filterMap.mpr ⟨_, among, rfl⟩
      exact machine.exists_step_of_mem_steps command _ step
  | romLoaded | batchEnded => trivial

end Event

namespace Notice

theorem level_ofEvent (elapsed : Float) (event : Event) :
    (ofEvent elapsed event).level = event.severity := by
  cases event with
  | romLoaded rom => rfl
  | stepped result state =>
      rw [ofEvent, Event.severity, stepped]
      cases result.status <;> rfl
  | batchEnded steps last => rfl

open Printable

theorem isPlain_stepped {machine next : Machine} {result : StepResult}
    (step : machine.step = .ok (result, next)) : IsPlain (stepped result).message.toList := by
  have text := isPlain_columns (isPlain_mnemonic_of_step step) result.address result.word
  have fault : IsPlain (result.error.getD "None").toList := by
    cases reported : result.error with
    | none => decide
    | some error => exact isPlain_error_of_step step error reported
  rw [stepped]
  cases result.status with
  | ok => exact text
  | invalidOpcode | notImplemented | pausedAtBreakpoint | waitingForKey =>
      simp only [String.toList_append, isPlain_append, isPlain_hex, text, fault, and_true, true_and]
      decide

omit [RandomSource] in
theorem isPlain_romLoaded (size invalid : Int) :
    IsPlain (romLoaded size invalid).message.toList := by
  have remark : IsPlain (if invalid = 0 then "" else
      " (" ++ Numeral.decimal invalid ++ " words do not decode, likely data)").toList := by
    split
    · decide
    · simp only [String.toList_append, isPlain_append, isPlain_decimal, and_true]
      decide
  simp only [romLoaded, String.toList_append, isPlain_append, isPlain_decimal, remark, and_true]
  decide

omit [RandomSource] in
theorem isPlain_batchEnded (steps : Int) (elapsed : Float) {last : String}
    (plain : IsPlain last.toList) : IsPlain (batchEnded steps elapsed last).message.toList := by
  simp only [batchEnded, String.toList_append, String.toList_ofList, isPlain_append,
    isPlain_decimal, isPlain_fixed, plain, and_true]
  decide

/-- The message of an event is printable, so it stays on its line. -/
theorem isPlain_ofEvent (elapsed : Float) {event : Event} (told : event.IsTold) :
    IsPlain (ofEvent elapsed event).message.toList := by
  cases event with
  | romLoaded rom => exact isPlain_romLoaded _ _
  | stepped result state =>
      obtain ⟨machine, next, step⟩ := told
      exact isPlain_stepped step
  | batchEnded steps last =>
      refine isPlain_batchEnded steps elapsed ?_
      cases last with
      | none => decide
      | some result =>
          rw [Option.elim_some]
          cases result.status <;> decide

end Notice

/-- The line of an event breaks at its end, and else only where the name of the logger does. -/
theorem Event.count_line {event : Event} (told : event.IsTold) (name : String)
    (clock : ClockReading) :
    (event.line name clock).toList.count '\n' = name.toList.count '\n' + 1 := by
  have message := Printable.newline_not_mem_of_isPlain (Notice.isPlain_ofEvent clock.elapsed told)
  have severity : '\n' ∉ Numeral.flushRight 8 event.severity.name.toList := by
    cases event.severity <;> decide
  simp only [line, String.toList_append, String.toList_ofList, List.count_append,
    List.count_eq_zero_of_not_mem message, List.count_eq_zero_of_not_mem severity]
  simp

/-! ## Logs -/

namespace Logger

/-- All that a logger prints for events, one after the other. -/
def printed (logger : Logger) (observed : List (ClockReading × Event)) : String :=
  String.join (observed.map fun seen => logger.observe seen.1 seen.2)

/-- What a logger prints for each of the events for which it prints anything. -/
def lines (logger : Logger) (observed : List (ClockReading × Event)) : List String :=
  (observed.map fun seen => logger.observe seen.1 seen.2).filter (· != "")

omit [RandomSource] in
theorem join_filter_ne_empty (texts : List String) :
    String.join (texts.filter (· != "")) = String.join texts := by
  induction texts with
  | nil => rfl
  | cons text texts ih =>
      by_cases empty : text = ""
      · rw [List.filter_cons_of_neg (by simp [empty]), String.join_cons, ih, empty,
          String.empty_append]
      · rw [List.filter_cons_of_pos (by simp [empty]), String.join_cons, String.join_cons, ih]

theorem printed_eq_join_lines (logger : Logger) (observed : List (ClockReading × Event)) :
    logger.printed observed = String.join (logger.lines observed) :=
  (join_filter_ne_empty _).symm

omit [RandomSource] in
theorem count_join {texts : List String} {character : Char} {count : Nat}
    (each : ∀ text ∈ texts, text.toList.count character = count) :
    (String.join texts).toList.count character = texts.length * count := by
  induction texts with
  | nil => simp
  | cons text texts ih =>
      have own := each text List.mem_cons_self
      have others := ih fun other later => each other (List.mem_cons_of_mem text later)
      rw [String.join_cons, String.toList_append, List.count_append, own, others, List.length_cons,
        Nat.succ_mul, Nat.add_comm]

section Plain

variable (options : LoggerOptions) (start : Float)
  (colourless : (options.colours && options.terminal) = false)
  (untimed : options.timestamps = false)

include colourless untimed

/-- What is printed for one event. -/
theorem observe_create (clock : ClockReading) (event : Event) :
    (create options start).observe clock event =
      if (create options start).threshold.rank ≤ event.severity.rank then
        event.line options.name clock
      else "" := by
  have no_time : (create options start).timestamp clock.now = "" := by
    rw [timestamp, create, if_neg (by simp [untimed])]
  have no_colour (level : Level) : (create options start).severity level =
      "[" ++ String.ofList (Numeral.flushRight 8 level.name.toList) ++ "]" := by
    rw [severity, create, if_neg (by simp [colourless])]
  have named : (create options start).name = options.name := rfl
  rw [observe, notify, log, Notice.level_ofEvent, prints, line, no_time, no_colour, named]
  simp only [decide_eq_true_eq, Event.line, String.empty_append, String.append_assoc]
  rfl

/-- A log consists of the lines of the events at or above the level, in order. -/
theorem lines_create (observed : List (ClockReading × Event)) :
    (create options start).lines observed =
      (observed.filter fun seen =>
        (create options start).threshold.rank ≤ seen.2.severity.rank).map fun seen =>
          seen.2.line options.name seen.1 := by
  have line_ne_empty (seen : ClockReading × Event) :
      seen.2.line options.name seen.1 ≠ "" := by
    simp [Event.line]
  induction observed with
  | nil => rfl
  | cons seen later ih =>
      rw [lines] at ih
      by_cases reaches : (create options start).threshold.rank ≤ seen.2.severity.rank
      · rw [lines, List.map_cons, observe_create options start colourless untimed, if_pos reaches,
          List.filter_cons_of_pos (by simpa using line_ne_empty seen), ih,
          List.filter_cons_of_pos (by simpa using reaches), List.map_cons]
      · rw [lines, List.map_cons, observe_create options start colourless untimed, if_neg reaches,
          List.filter_cons_of_neg (by simp), ih, List.filter_cons_of_neg (by simpa using reaches)]

/-- A log at a higher level is one at a lower level with lines left out. -/
theorem lines_sublist {level : String} (observed : List (ClockReading × Event))
    (stricter : (create options start).threshold.rank ≤
      (create { options with level } start).threshold.rank) :
    ((create { options with level } start).lines observed).Sublist
      ((create options start).lines observed) := by
  rw [lines_create { options with level } start colourless untimed,
    lines_create options start colourless untimed]
  refine List.Sublist.map _ (List.monotone_filter_right observed fun seen reaches => ?_)
  simp only [decide_eq_true_eq] at reaches ⊢
  exact stricter.trans reaches

end Plain

omit [RandomSource] in
/-- The name of the level counts by its capital form only. -/
theorem create_congr {options : LoggerOptions} {level : String} (start : Float)
    (alike : Uppercase.upper level = Uppercase.upper options.level) :
    create { options with level } start = create options start := by
  rw [create, create, alike]

/-- A logger without times and colours prints the lines of the events at or above its level, in their
order and each on a line of its own: a line ends in a line break, and there are no others than those
in the name of the logger, as messages are printable.  At another level that is no lower the log is
the same with lines left out.  Names of levels that differ in the case of their letters stand for the
same log; a name stands for the level that bears its capital form, and for `INFO` if there is none. -/
theorem log_is_projection_of_trace (options : LoggerOptions) (start : Float)
    (observed : List (ClockReading × Event))
    (colourless : (options.colours && options.terminal) = false)
    (untimed : options.timestamps = false) (told : ∀ seen ∈ observed, seen.2.IsTold) :
    let logger := create options start
    let atLevel (level : String) := create { options with level } start
    logger.lines observed =
        (observed.filter fun seen => logger.threshold.rank ≤ seen.2.severity.rank).map
          (fun seen => seen.2.line options.name seen.1) ∧
      logger.printed observed = String.join (logger.lines observed) ∧
      (logger.printed observed).toList.count '\n' =
        (logger.lines observed).length * (options.name.toList.count '\n' + 1) ∧
      (∀ seen ∈ observed,
        Printable.IsPlain (Notice.ofEvent seen.1.elapsed seen.2).message.toList) ∧
      (∀ level : String, logger.threshold.rank ≤ (atLevel level).threshold.rank →
        ((atLevel level).lines observed).Sublist (logger.lines observed)) ∧
      (∀ level : String,
        Uppercase.upper level = Uppercase.upper options.level ∨
            level.toList.map Char.toLower = options.level.toList.map Char.toLower →
          atLevel level = logger) ∧
      (∀ level : Level, Uppercase.upper options.level = level.name → logger.threshold = level) ∧
      ((∀ level : Level, Uppercase.upper options.level ≠ level.name) →
        logger.threshold = .info ∧
          (atLevel "INFO").lines observed = logger.lines observed) := by
  intro logger atLevel
  have projected := lines_create options start colourless untimed observed
  refine ⟨projected, logger.printed_eq_join_lines observed, ?_, ?_, ?_, ?_, ?_, ?_⟩
  · rw [printed_eq_join_lines]
    refine count_join fun text member => ?_
    rw [projected] at member
    obtain ⟨seen, among, rfl⟩ := List.mem_map.mp member
    exact Event.count_line (told seen (List.mem_of_mem_filter among)) options.name seen.1
  · exact fun seen among => Notice.isPlain_ofEvent seen.1.elapsed (told seen among)
  · exact fun level stricter => lines_sublist options start colourless untimed observed stricter
  · rintro level (alike | alike)
    · exact create_congr start alike
    · exact create_congr start (Uppercase.upper_eq_of_toLower_eq alike)
  · exact fun level known => threshold_create_of_known start known
  · intro unknown
    have own := threshold_create_of_unknown start unknown
    have capital : Uppercase.upper "INFO" = Level.info.name := by decide +kernel
    have news : (atLevel "INFO").threshold = .info := threshold_create_of_known start capital
    refine ⟨own, ?_⟩
    rw [projected, lines_create { options with level := "INFO" } start colourless untimed, news, own]

end Logger

end Source

/-- A run that halts at its second word, seen at a level whose name is spelled in small and capital
letters: of the two steps and the end of the run the second step alone is printed. -/
theorem Logger.log_is_projection_of_trace_of_a_halt :
    let options : LoggerOptions := ⟨"Chip8", "wArning", true, false, false⟩
    let clock : ClockReading := ⟨2, 1⟩
    let machine := { Machine.create 0 ⟨true, true⟩ with
      state := { State.initial 0 ⟨true, true⟩ with
        memory := Memory.blank.writeAll 0x200 [0x60, 0x01, 0x51, 0x21] } }
    let observed := (machine.perform (.run 9 none)).events.map fun event => (clock, event)
    (options.colours && options.terminal) = false ∧ options.timestamps = false ∧
      (∀ seen ∈ observed, seen.2.IsTold) ∧ observed.length = 3 ∧
      (create options 0).threshold = .warning ∧
      (create options 0).printed observed =
        "[ WARNING][Chip8] 0x202  5121  Invalid opcode 0x5121 -> Invalid opcode 0x5121\n" := by
  intro options clock machine observed
  have told : ∀ seen ∈ observed, seen.2.IsTold := by
    intro seen among
    obtain ⟨event, member, rfl⟩ := List.mem_map.mp among
    exact Event.isTold_of_mem_perform machine _ event member
  obtain ⟨projected, printed, -, -, -, -, known, -⟩ :=
    log_is_projection_of_trace options 0 observed rfl rfl told
  have threshold := known .warning (by decide +kernel)
  have kept : (observed.filter fun seen => Level.warning.rank ≤ seen.2.severity.rank).map
      (fun seen => seen.2.line options.name seen.1) =
        ["[ WARNING][Chip8] 0x202  5121  Invalid opcode 0x5121 -> Invalid opcode 0x5121\n"] := by
    decide +kernel
  refine ⟨rfl, rfl, told, by decide +kernel, threshold, ?_⟩
  rw [printed, projected, threshold, kept]
  rfl

end Chip8
