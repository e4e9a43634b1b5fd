import Chip8.Proofs.History

/-!
# One pause for each arrival

A machine that stands at a breakpoint pauses unless it has paused there already.  What counts as an
arrival is read off the history: a pause is forgotten when a program is loaded, when the breakpoints
are cleared, and when a step goes past the word at hand.  Waiting for a key, a fault of the call
stack and the removal of single breakpoints do not make the machine pause again.
-/

namespace Chip8

/-- Whether a step of this status has gone past the word at hand. -/
def StepStatus.passes : StepStatus → Bool
  | .ok => true
  | .invalidOpcode => true
  | .notImplemented => true
  | .pausedAtBreakpoint => false
  | .waitingForKey => false

/-- Whether a machine forgets in a turn that it has paused. -/
def Turn.rearms : Turn → Bool
  | ⟨.load _, .ok _⟩ => true
  | ⟨.clearBreakpoints, _⟩ => true
  | ⟨.step, .ok (.stepped result)⟩ => result.status.passes
  | _ => false

/-- A step has paused, and no turn since then makes the machine forget it. -/
def PausedSince (past : List Turn) : Prop :=
  ∃ front turn back, past = front ++ turn :: back ∧ turn.isPause = true ∧
    ∀ other ∈ back, other.rearms = false

theorem not_pausedSince_nil : ¬PausedSince [] := by
  rintro ⟨front, turn, back, split, -, -⟩
  simp at split

/-- A turn of a history that has just grown is either the newest or one of those before. -/
theorem split_concat {past front back : List Turn} {turn found : Turn}
    (split : past ++ [turn] = front ++ found :: back) :
    (back = [] ∧ found = turn ∧ past = front) ∨
      ∃ rest, back = rest ++ [turn] ∧ past = front ++ found :: rest := by
  rcases List.eq_nil_or_concat back with rfl | ⟨rest, last, rfl⟩
  · obtain ⟨rfl, rfl⟩ := List.append_singleton_inj.mp split
    exact .inl ⟨rfl, rfl, rfl⟩
  · rw [List.concat_eq_append, ← List.cons_append, ← List.append_assoc] at split
    obtain ⟨rfl, rfl⟩ := List.append_singleton_inj.mp split
    exact .inr ⟨rest, List.concat_eq_append, rfl⟩

theorem pausedSince_concat (past : List Turn) (turn : Turn) :
    PausedSince (past ++ [turn]) ↔
      turn.isPause = true ∨ PausedSince past ∧ turn.rearms = false := by
  constructor
  · rintro ⟨front, pause, back, split, paused, quiet⟩
    rcases split_concat split with ⟨rfl, rfl, rfl⟩ | ⟨rest, rfl, rfl⟩
    · exact .inl paused
    · refine .inr ⟨⟨front, pause, rest, rfl, paused, fun other member => ?_⟩, ?_⟩
      · exact quiet other (List.mem_append_left _ member)
      · exact quiet turn (by simp)
  · rintro (paused | ⟨⟨front, pause, back, rfl, paused, quiet⟩, calm⟩)
    · exact ⟨past, turn, [], rfl, paused, by simp⟩
    · refine ⟨front, pause, back ++ [turn], by simp, paused, fun other member => ?_⟩
      rcases List.mem_append.mp member with member | member
      · exact quiet other member
      · rw [List.mem_singleton.mp member]
        exact calm

/-- Between two pauses some turn makes the machine forget the first. -/
def PausesApart (past : List Turn) : Prop :=
  ∀ front first middle second back, past = front ++ first :: middle ++ second :: back →
    first.isPause = true → second.isPause = true → ∃ turn ∈ middle, turn.rearms = true

theorem pausesApart_nil : PausesApart [] := by
  intro front first middle second back split
  simp at split

theorem PausesApart.concat {past : List Turn} {turn : Turn} (apart : PausesApart past)
    (fresh : turn.isPause = true → ¬PausedSince past) : PausesApart (past ++ [turn]) := by
  intro front first middle second back split first_pauses second_pauses
  rcases split_concat split with ⟨rfl, rfl, rfl⟩ | ⟨rest, rfl, rfl⟩
  · cases forgets : middle.any Turn.rearms with
    | true => exact List.any_eq_true.mp forgets
    | false =>
        have quiet : ∀ other ∈ middle, other.rearms = false := by
          simpa using forgets
        exact (fresh second_pauses ⟨front, first, middle, rfl, first_pauses, quiet⟩).elim
  · exact apart front first middle second rest rfl first_pauses second_pauses

namespace Machine

variable [RandomSource]

/-- What a step does to the memory of the last pause. -/
theorem lastBreak_step {machine next : Machine} {result : StepResult}
    (step : machine.step = .ok (result, next)) :
    (result.status = .pausedAtBreakpoint ∧ next.lastBreak = some next.state.pc) ∨
      (result.status = .waitingForKey ∧ next.lastBreak = machine.lastBreak ∧
        next.state.pc = machine.state.pc) ∨
      (result.status.passes = true ∧ next.lastBreak = none) := by
  cases stepsTo_of_step step with
  | paused => exact .inl ⟨rfl, rfl⟩
  | invalid | refused | completed => exact .inr (.inr ⟨rfl, rfl⟩)
  | awaiting => exact .inr (.inl ⟨rfl, rfl, rfl⟩)

/-- Other requests than a load and a clearing of the breakpoints leave the memory of the last pause
and the current address alone. -/
theorem lastBreak_request {machine : Machine} {command : Command}
    (request : command.isRequest = true)
    (quiet : Turn.rearms ⟨command, (machine.perform command).reply⟩ = false) :
    (machine.perform command).machine.lastBreak = machine.lastBreak ∧
      (machine.perform command).machine.state.pc = machine.state.pc := by
  cases acts : command.onState machine.state with
  | error fault =>
      rw [perform_request_error request acts]
      exact ⟨rfl, rfl⟩
  | ok state =>
      cases command with
      | step | run => cases request
      | clearBreakpoints => cases quiet
      | load rom =>
          rw [(perform_request_ok request acts).1] at quiet
          cases quiet
      | pressKey key | releaseKey key =>
          rw [Command.onState] at acts
          obtain ⟨inside, rfl⟩ := State.setKey_eq_ok acts
          simp only [perform, setKey, acts, ok_bind]
          exact ⟨rfl, rfl⟩
      | _ => exact ⟨rfl, rfl⟩

theorem lastBreak_of_rearming_request {machine : Machine} {command : Command}
    (request : command.isRequest = true)
    (rearms : Turn.rearms ⟨command, (machine.perform command).reply⟩ = true) :
    (machine.perform command).machine.lastBreak = none := by
  cases command with
  | load rom =>
      simp only [perform, performLoad, load] at rearms ⊢
      cases acts : machine.state.load rom with
      | error fault =>
          simp only [acts, error_bind] at rearms
          cases rearms
      | ok state => rfl
  | clearBreakpoints => rfl
  | step => cases request
  | _ => cases rearms

omit [RandomSource] in
theorem isPause_request {command : Command} (request : command.isRequest = true)
    (reply : Except Fault Reply) : Turn.isPause ⟨command, reply⟩ = false := by
  cases command with
  | step => cases request
  | _ => rfl

/-- The last pause is remembered as long as the history says so, and is at the current address. -/
def Remembers (machine : Machine) (past : List Turn) : Prop :=
  (PausedSince past ∧ machine.lastBreak = some machine.state.pc) ∨
    (¬PausedSince past ∧ machine.lastBreak = none)

theorem Remembers.pauses_iff {machine : Machine} {past : List Turn}
    (remembers : machine.Remembers past) :
    machine.pauses = true ↔
      machine.breakpoints.contains machine.state.pc.toNat = true ∧ ¬PausedSince past := by
  rcases remembers with ⟨since, last⟩ | ⟨not_since, last⟩
  · simp [pauses, last, since]
  · simp [pauses, last, not_since]

/-- A turn that neither pauses nor rearms, at an address that does not move, changes nothing. -/
theorem Remembers.quiet {machine next : Machine} {past : List Turn} {turn : Turn}
    (remembers : machine.Remembers past) (no_pause : turn.isPause = false)
    (quiet : turn.rearms = false) (same_last : next.lastBreak = machine.lastBreak)
    (same_pc : next.state.pc = machine.state.pc) : next.Remembers (past ++ [turn]) := by
  rw [Remembers, pausedSince_concat, no_pause, quiet, same_last, same_pc]
  simpa [Remembers] using remembers

theorem Remembers.rearmed {next : Machine} {past : List Turn} {turn : Turn}
    (no_pause : turn.isPause = false) (rearms : turn.rearms = true)
    (forgotten : next.lastBreak = none) : next.Remembers (past ++ [turn]) := by
  rw [Remembers, pausedSince_concat, no_pause, rearms, forgotten]
  simp

theorem Remembers.keeps {machine : Machine} {past : List Turn} {command : Command}
    (single : command.isBatch = false) (remembers : machine.Remembers past) :
    (machine.perform command).machine.Remembers
      (past ++ [⟨command, (machine.perform command).reply⟩]) := by
  rcases Command.step_or_request single with rfl | request
  · cases step : machine.step with
    | error fault =>
        rw [perform_step_error step]
        exact remembers.quiet rfl rfl rfl rfl
    | ok outcome =>
        obtain ⟨result, next⟩ := outcome
        rw [perform_step_ok step]
        rcases lastBreak_step step with
          ⟨paused, last⟩ | ⟨waits, same_last, same_pc⟩ | ⟨passes, forgotten⟩
        · refine .inl ⟨(pausedSince_concat _ _).mpr (.inl ?_), last⟩
          simp [Turn.isPause, Turn.report?, paused]
        · refine remembers.quiet ?_ ?_ same_last same_pc
          · simp [Turn.isPause, Turn.report?, waits]
          · simp [Turn.rearms, waits, StepStatus.passes]
        · refine Remembers.rearmed ?_ passes forgotten
          cases status : result.status <;>
            simp_all [Turn.isPause, Turn.report?, StepStatus.passes]
  · have no_pause := isPause_request request (machine.perform command).reply
    cases rearms : Turn.rearms ⟨command, (machine.perform command).reply⟩ with
    | true => exact Remembers.rearmed no_pause rearms (lastBreak_of_rearming_request request rearms)
    | false =>
        obtain ⟨same_last, same_pc⟩ := lastBreak_request request rearms
        exact remembers.quiet no_pause rearms same_last same_pc

/-- A turn that pauses is the first to do so since the machine has last forgotten a pause. -/
theorem Remembers.fresh {machine : Machine} {past : List Turn} {command : Command}
    (single : command.isBatch = false) (remembers : machine.Remembers past)
    (paused : Turn.isPause ⟨command, (machine.perform command).reply⟩ = true) :
    ¬PausedSince past := by
  rcases Command.step_or_request single with rfl | request
  · cases step : machine.step with
    | error fault =>
        rw [perform_step_error step] at paused
        cases paused
    | ok outcome =>
        obtain ⟨result, next⟩ := outcome
        rw [perform_step_ok step] at paused
        have status : result.status = .pausedAtBreakpoint := by
          simpa [Turn.isPause, Turn.report?] using paused
        have pauses := (status_step_eq_paused_iff step).mp status
        exact (remembers.pauses_iff.mp pauses).2
  · rw [isPause_request request] at paused
    cases paused

/-- Everything that the pauses of a machine keep to while its host drives it. -/
structure PausesOnce (machine : Machine) (past : List Turn) : Prop where
  /-- The last pause is remembered as long as it should be. -/
  remembers : machine.Remembers past
  /-- Pauses do not follow each other directly. -/
  apart : PausesApart past

theorem PausesOnce.keeps {machine : Machine} {past : List Turn} {command : Command}
    (single : command.isBatch = false) (before : machine.PausesOnce past) :
    (machine.perform command).machine.PausesOnce
      (past ++ [⟨command, (machine.perform command).reply⟩]) :=
  ⟨before.remembers.keeps single, before.apart.concat (before.remembers.fresh single)⟩

theorem pausesOnce_after (seed : Int) (dialect : Dialect) (commands : List Command) :
    ((create seed dialect).after commands).PausesOnce ((create seed dialect).history commands) := by
  have start : (create seed dialect).PausesOnce [] :=
    ⟨.inr ⟨not_pausedSince_nil, rfl⟩, pausesApart_nil⟩
  exact history_invariant PausesOnce (fun _ _ _ single before => before.keeps single) start commands

/-- A machine in the hands of a host pauses once for each arrival at a breakpoint.  The address of
the last pause is the current one as long as it is remembered, and a step pauses exactly at a
breakpoint where no step has paused since the machine last forgot a pause.  So a breakpoint that a
step arrives at is never skipped, neither waiting for a key nor a fault brings a pause back, and two
pauses always have a turn between them that makes the machine forget the first. -/
theorem pauses_once_per_arrival (seed : Int) (dialect : Dialect) (commands : List Command) :
    let machine := (create seed dialect).after commands
    let past := (create seed dialect).history commands
    (machine.lastBreak = none ∨ machine.lastBreak = some machine.state.pc) ∧
      ((∃ result next, machine.step = .ok (result, next) ∧
          result.status = .pausedAtBreakpoint) ↔
        machine.breakpoints.contains machine.state.pc.toNat = true ∧ ¬PausedSince past) ∧
      (∀ result next, machine.step = .ok (result, next) → result.status.passes = true →
        next.breakpoints.contains next.state.pc.toNat = true → next.step = .ok next.pause) ∧
      (∀ result next, machine.step = .ok (result, next) → result.status = .waitingForKey →
        ∀ again later, next.step = .ok (again, later) → again.status ≠ .pausedAtBreakpoint) ∧
      (∀ fault, machine.step = .error fault →
        (machine.perform .step).machine.step = .error fault) ∧
      PausesApart past := by
  intro machine past
  obtain ⟨remembers, apart⟩ := pausesOnce_after seed dialect commands
  refine ⟨?_, ?_, ?_, ?_, ?_, apart⟩
  · rcases remembers with ⟨-, last⟩ | ⟨-, last⟩
    · exact .inr last
    · exact .inl last
  · rw [← remembers.pauses_iff]
    constructor
    · rintro ⟨result, next, step, paused⟩
      exact (status_step_eq_paused_iff step).mp paused
    · intro pauses
      exact ⟨_, _, step_of_pauses pauses, rfl⟩
  · intro result next step passes at_breakpoint
    rcases lastBreak_step step with ⟨paused, -⟩ | ⟨waits, -, -⟩ | ⟨-, forgotten⟩
    · simp [paused, StepStatus.passes] at passes
    · simp [waits, StepStatus.passes] at passes
    · apply step_of_pauses
      simp [pauses, at_breakpoint, forgotten]
  · intro result next step waits again later again_step paused
    have again_pauses := (status_step_eq_paused_iff again_step).mp paused
    rcases lastBreak_step step with ⟨paused, -⟩ | ⟨-, same_last, same_pc⟩ | ⟨passes, -⟩
    · rw [waits] at paused
      cases paused
    · have same : next.pauses = machine.pauses := by
        simp only [pauses, same_last, same_pc, (step_keeps step).2]
      rw [same] at again_pauses
      have first_paused := (status_step_eq_paused_iff step).mpr again_pauses
      rw [waits] at first_paused
      cases first_paused
    · simp [waits, StepStatus.passes] at passes
  · intro fault step
    rw [perform_step_error step]
    exact step

end Machine
end Chip8
