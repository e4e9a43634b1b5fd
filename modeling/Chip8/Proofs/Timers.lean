import Mathlib.Data.List.Induction
import Chip8.Proofs.History
import Chip8.Proofs.HostEvents

/-!
# Timers

A timer shows its last write less the ticks since, and never less than zero.  The account of a timer
lists the writes and the ticks that a run has made to it; a step that is paused, passed over, waiting
or refused adds nothing, and neither does anything that concerns the other timer alone.
-/

namespace Chip8

/-- One of the two timers. -/
inductive Timer where
  /-- The timer that instructions can read. -/
  | delay
  /-- The timer that sounds. -/
  | sound
  deriving DecidableEq

/-- Something that happens to a timer. -/
inductive TimerEvent where
  /-- A value is written to it. -/
  | written (value : Nat)
  /-- It is ticked. -/
  | ticked
  deriving DecidableEq

/-- What a timer shows after something has happened to it. -/
def TimerEvent.next (shown : Nat) : TimerEvent → Nat
  | .written value => value
  | .ticked => shown - 1

namespace Timer

variable [RandomSource]

/-- What a timer shows. -/
def value : Timer → State → UInt8
  | .delay, state => state.delayTimer
  | .sound, state => state.soundTimer

/-- The timer among the components of a state. -/
def component : Timer → Component
  | .delay => .delayTimer
  | .sound => .soundTimer

/-- The operation that writes to a timer. -/
def writer : Timer → Operation
  | .delay => .writeDelay
  | .sound => .writeSound

/-- What a turn does to a timer, with the state before it.  An instruction that writes to the timer
writes the register that its word names. -/
def during (timer : Timer) (before : State) : Turn → List TimerEvent
  | ⟨.load _, .ok _⟩ => [.written 0]
  | ⟨.step, .ok (.stepped result)⟩ =>
    if result.status = .ok ∧ timer.writer.Covers result.word then
      [.written (before.register (Operand.x.registerIn result.word))]
    else
      []
  | ⟨.tickDelay, _⟩ => if timer = .delay then [.ticked] else []
  | ⟨.tickSound, _⟩ => if timer = .sound then [.ticked] else []
  | ⟨.tick, _⟩ => [.ticked]
  | _ => []

/-- What single commands do to a timer, in order. -/
def account (timer : Timer) (machine : Machine) : List Command → List TimerEvent
  | [] => []
  | command :: commands =>
    timer.during machine.state ⟨command, (machine.perform command).reply⟩ ++
      timer.account (machine.perform command).machine commands

/-- A turn from one state to another does to a timer just what is in its account. -/
def Follows (timer : Timer) (before after : State) (turn : Turn) : Prop :=
  (timer.value after).toNat =
    (timer.during before turn).foldl TimerEvent.next (timer.value before).toNat

/-! ## What instructions do to a timer -/

section Instructions

variable {timer : Timer} {state : State} {effects : List Effect}

theorem value_of_kept {after : State} (kept : timer.component.Kept state after) :
    timer.value after = timer.value state := by
  cases timer <;> exact kept

theorem component_mem_targets_iff (timer : Timer) (instruction : Instruction) (state : State) :
    timer.component ∈ instruction.targets state ↔ instruction.operation = timer.writer := by
  cases timer with
  | delay => exact (HostEvent.timer_targets_iff instruction state).1
  | sound => exact (HostEvent.timer_targets_iff instruction state).2

theorem value_of_writes {word : Int}
    (acts : (timer.writer.instructionIn word).effects state = .ok effects) :
    timer.value (Effect.applyAll effects state) = state.registers[Operand.x.registerIn word] := by
  cases timer with
  | delay | sound =>
      cases acts
      exact ofInt_toNat_uint8 _

end Instructions

/-! ## What single commands do to a timer -/

section Commands

variable {timer : Timer} {machine : Machine}

/-- Only an instruction that is run to its end does something to a timer. -/
theorem during_step_of_not_ok {before : State} {result : StepResult} (other : result.status ≠ .ok) :
    timer.during before ⟨.step, .ok (.stepped result)⟩ = [] := by
  rw [during, if_neg]
  exact fun written => other written.1

theorem follows_of_completed {entry : Entry Operation} {mnemonic : String}
    {instruction : Instruction} {effects : List Effect}
    (decodes : Decodes machine.state.word entry mnemonic instruction)
    (acts : instruction.effects machine.state.advance = .ok effects) :
    timer.Follows machine.state (Effect.applyAll effects machine.state.advance)
      ⟨.step, .ok (.stepped (machine.report .ok mnemonic (some entry.name) none))⟩ := by
  have runs : timer.writer ≠ .machineCall := by cases timer <;> decide
  by_cases writes : timer.writer.Covers machine.state.word
  · have operation := (decodes.operation_eq_iff runs).mpr writes
    have own := decodes.eq_instructionIn
    rw [operation] at own
    subst own
    rw [Follows, during, if_pos ⟨rfl, writes⟩, value_of_writes acts]
    rfl
  · have other : timer.component ∉ instruction.targets machine.state.advance := by
      rwa [component_mem_targets_iff, decodes.operation_eq_iff runs]
    rw [Follows, during, if_neg fun written => writes written.2,
      value_of_kept (Instruction.kept_of_not_mem_targets acts other)]
    cases timer <;> rfl

theorem follows_step (timer : Timer) (machine : Machine) :
    timer.Follows machine.state (machine.perform .step).machine.state
      ⟨.step, (machine.perform .step).reply⟩ := by
  cases step : machine.step with
  | error fault =>
      rw [Machine.perform_step_error step]
      rfl
  | ok outcome =>
      rw [Machine.perform_step_ok step]
      cases Machine.stepsTo_of_step step with
      | completed _ decodes _ acts => exact follows_of_completed decodes acts
      | paused | invalid | refused | awaiting =>
          rw [Follows, during_step_of_not_ok fun ok => by cases ok]
          cases timer <;> rfl

theorem follows_request {command : Command} (request : command.isRequest = true) :
    timer.Follows machine.state (machine.perform command).machine.state
      ⟨command, (machine.perform command).reply⟩ := by
  cases outcome : command.onState machine.state with
  | error fault =>
      rw [Machine.perform_request_error request outcome]
      cases command with
      | load | pressKey | releaseKey => rfl
      | _ => cases outcome
  | ok state =>
      obtain ⟨reply, reached⟩ := Machine.perform_request_ok request outcome
      rw [reply, reached]
      cases command with
      | step | run => cases request
      | load rom =>
          obtain ⟨-, rfl⟩ := State.load_eq_ok outcome
          cases timer <;> rfl
      | pressKey | releaseKey =>
          obtain ⟨-, rfl⟩ := State.setKey_eq_ok outcome
          cases timer <;> rfl
      | tickDelay =>
          cases outcome
          cases timer with
          | delay => exact State.toNat_countDown _
          | sound => rfl
      | tickSound =>
          cases outcome
          cases timer with
          | delay => rfl
          | sound => exact State.toNat_countDown _
      | tick =>
          cases outcome
          cases timer with
          | delay | sound => exact State.toNat_countDown _
      | _ =>
          cases outcome
          rfl

theorem follows_perform {command : Command} (single : command.isBatch = false) :
    timer.Follows machine.state (machine.perform command).machine.state
      ⟨command, (machine.perform command).reply⟩ := by
  rcases Command.step_or_request single with rfl | request
  · exact timer.follows_step machine
  · exact follows_request request

end Commands

/-! ## Whole runs -/

theorem value_after (timer : Timer) (machine : Machine) {commands : List Command}
    (single : ∀ command ∈ commands, command.isBatch = false) :
    (timer.value (machine.after commands).state).toNat =
      (timer.account machine commands).foldl TimerEvent.next (timer.value machine.state).toNat := by
  induction commands generalizing machine with
  | nil => rfl
  | cons command commands ih =>
      have rest := ih (machine.perform command).machine fun other member =>
        single other (List.mem_cons_of_mem command member)
      rw [Machine.after_cons, rest, follows_perform (single command List.mem_cons_self), account,
        List.foldl_append]

omit [RandomSource] in
/-- After a first write there is a last one, with ticks alone behind it. -/
theorem exists_last_write (first : Nat) (events : List TimerEvent) :
    ∃ (earlier : List TimerEvent) (value ticks : Nat),
      .written first :: events = earlier ++ .written value :: List.replicate ticks .ticked ∧
        events.foldl TimerEvent.next first = value - ticks := by
  induction events using List.reverseRecOn with
  | nil => exact ⟨[], first, 0, rfl, rfl⟩
  | append_singleton events event ih =>
      rw [List.foldl_append]
      cases event with
      | written value => exact ⟨.written first :: events, value, 0, rfl, rfl⟩
      | ticked =>
          obtain ⟨earlier, value, ticks, split, shown⟩ := ih
          refine ⟨earlier, value, ticks + 1, ?_, ?_⟩
          · rw [← List.cons_append, split, List.append_assoc, List.cons_append,
              List.replicate_succ']
          · rw [shown]
            exact Nat.sub_sub value ticks 1

/-- In the account of a new machine, which begins with the zero written when it was made, there is a
last write, after which there are ticks alone; and the timer shows the value written less the number
of these ticks, or zero if there were more. -/
theorem counts_down_from_last_write (seed : Int) (dialect : Dialect) (commands : List Command)
    (timer : Timer) :
    let start := Machine.create seed dialect
    ∃ (earlier : List TimerEvent) (value ticks : Nat),
      .written 0 :: timer.account start (start.singles commands) =
          earlier ++ .written value :: List.replicate ticks .ticked ∧
        ((timer.value (start.after commands).state).toNat : Int) = max 0 ((value : Int) - ticks) := by
  intro start
  obtain ⟨single, reached⟩ := start.singles_spec commands
  have zero : (timer.value start.state).toNat = 0 := by cases timer <;> rfl
  have counted := timer.value_after start single
  rw [zero, reached] at counted
  obtain ⟨earlier, value, ticks, split, shown⟩ :=
    exists_last_write 0 (timer.account start (start.singles commands))
  refine ⟨earlier, value, ticks, split, ?_⟩
  rw [counted, shown]
  omega

end Timer
end Chip8
