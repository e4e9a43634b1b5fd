import Chip8.Proofs.History
import Chip8.Threefry

/-!
# Breakpoints are transparent

Breakpoints decide when a machine pauses and nothing else.  Leaving out of a history the turns that
edit breakpoints and the steps that paused gives the history of a machine without breakpoints.
-/

namespace Chip8

/-- Whether a turn would also be taken by a machine without breakpoints. -/
def Turn.isVisible (turn : Turn) : Bool :=
  !turn.command.editsBreakpoints && !turn.isPause

namespace Machine

variable [RandomSource]

/-- Commands that edit breakpoints, and steps that pause, leave the state as it was. -/
theorem state_perform_of_hidden (machine : Machine) {command : Command}
    (hidden : Turn.isVisible ⟨command, (machine.perform command).reply⟩ = false) :
    (machine.perform command).machine.state = machine.state := by
  cases command with
  | addBreakpoint | removeBreakpoint | clearBreakpoints => rfl
  | step =>
      cases outcome : machine.step with
      | error fault => rw [perform_step_error outcome]
      | ok pair =>
          obtain ⟨result, next⟩ := pair
          rw [perform_step_ok outcome] at hidden ⊢
          have paused : result.status = .pausedAtBreakpoint := by
            simpa [Turn.isVisible, Turn.isPause, Turn.report?, Command.editsBreakpoints]
              using hidden
          have pauses := (status_step_eq_paused_iff outcome).mp paused
          rw [step_of_pauses pauses] at outcome
          cases outcome
          rfl
  | _ => cases hidden

/-- A visible step runs an instruction. -/
theorem runs_of_visible_step {machine : Machine}
    (visible : Turn.isVisible ⟨.step, (machine.perform .step).reply⟩ = true) :
    machine.pauses = false := by
  cases pauses : machine.pauses with
  | false => rfl
  | true =>
      rw [perform_step_ok (step_of_pauses pauses)] at visible
      cases visible

/-- A visible command has the same reply and the same effect on the state without breakpoints. -/
theorem perform_congr_of_visible {machine plain : Machine} {command : Command}
    (single : command.isBatch = false) (same : machine.state = plain.state)
    (none : plain.breakpoints = .empty)
    (visible : Turn.isVisible ⟨command, (machine.perform command).reply⟩ = true) :
    (plain.perform command).reply = (machine.perform command).reply ∧
      (plain.perform command).machine.state = (machine.perform command).machine.state := by
  rcases Command.step_or_request single with rfl | request
  · have runs := runs_of_visible_step visible
    have plain_runs := pauses_of_no_breakpoints none
    cases step : machine.step with
    | error fault =>
        have plain_step := step_error_congr same runs plain_runs step
        rw [perform_step_error step, perform_step_error plain_step]
        exact ⟨rfl, same.symm⟩
    | ok outcome =>
        obtain ⟨result, next⟩ := outcome
        obtain ⟨other, plain_step, same_next⟩ := step_ok_congr same runs plain_runs step
        rw [perform_step_ok step, perform_step_ok plain_step]
        exact ⟨rfl, same_next⟩
  · cases acts : command.onState machine.state with
    | error fault =>
        rw [perform_request_error request acts, perform_request_error request (same ▸ acts)]
        exact ⟨rfl, same.symm⟩
    | ok state =>
        obtain ⟨reply, changed⟩ := perform_request_ok request acts
        obtain ⟨plain_reply, plain_changed⟩ := perform_request_ok request (same ▸ acts)
        exact ⟨plain_reply.trans reply.symm, plain_changed.trans changed.symm⟩

/-! ## Replaying a history -/

/-- The turns of a history that a machine without breakpoints would also take. -/
def visible (past : List Turn) : List Turn :=
  past.filter Turn.isVisible

/-- A machine without breakpoints that has caught up with the visible turns of another machine. -/
structure CaughtUp (plain : Machine) (machine : Machine) (past : List Turn) : Prop where
  /-- The plain machine takes the visible turns when it is given their commands. -/
  replayed : plain.history ((visible past).map Turn.command) = visible past
  /-- After them both machines are in the same state. -/
  same : machine.state = (plain.after ((visible past).map Turn.command)).state
  /-- The plain machine still has no breakpoints. -/
  none : (plain.after ((visible past).map Turn.command)).breakpoints = .empty

theorem CaughtUp.keeps {plain machine : Machine} {past : List Turn} {command : Command}
    (single : command.isBatch = false) (before : CaughtUp plain machine past) :
    CaughtUp plain (machine.perform command).machine
      (past ++ [⟨command, (machine.perform command).reply⟩]) := by
  obtain ⟨replayed, same, none⟩ := before
  cases shown : Turn.isVisible ⟨command, (machine.perform command).reply⟩ with
  | false =>
      have visible_eq :
          visible (past ++ [⟨command, (machine.perform command).reply⟩]) = visible past := by
        simp [visible, shown]
      have unchanged := machine.state_perform_of_hidden shown
      constructor <;> rw [visible_eq]
      · exact replayed
      · exact unchanged.trans same
      · exact none
  | true =>
      let current := plain.after ((visible past).map Turn.command)
      have visible_eq : visible (past ++ [⟨command, (machine.perform command).reply⟩]) =
          visible past ++ [⟨command, (machine.perform command).reply⟩] := by
        simp [visible, shown]
      obtain ⟨same_reply, same_state⟩ := perform_congr_of_visible single same none shown
      have other : command.editsBreakpoints = false := by
        simp only [Turn.isVisible, Bool.and_eq_true, Bool.not_eq_true'] at shown
        exact shown.1
      constructor <;> rw [visible_eq, List.map_append]
      · rw [history_append, replayed]
        simp only [List.map_cons, List.map_nil, history_cons, history_nil, List.append_nil,
          turns_of_single _ single]
        rw [same_reply]
      · rw [after_append]
        exact same_state.symm
      · rw [after_append]
        exact (breakpoints_perform single other).trans none

/-- A history without its hidden turns is the history of a machine with an equal state and no
breakpoints: the same steps report the same, the same commands are refused with the same faults, and
both machines end in the same state.  A step that pauses leaves the state as it was. -/
theorem breakpoints_transparent (machine : Machine) (rom : List UInt8) (lastBreak : Option UInt16)
    (commands : List Command) :
    let plain : Machine := ⟨machine.state, rom, .empty, lastBreak⟩
    let kept := visible (machine.history commands)
    ((∀ command ∈ commands, command.isBatch = false) →
        (machine.history commands).map Turn.command = commands) ∧
      plain.history (kept.map Turn.command) = kept ∧
      (plain.after (kept.map Turn.command)).state = (machine.after commands).state ∧
      ∀ result next, (machine.after commands).step = .ok (result, next) →
        result.status = .pausedAtBreakpoint → next.state = (machine.after commands).state := by
  intro plain kept
  have start : CaughtUp plain machine [] := ⟨rfl, rfl, rfl⟩
  have caughtUp : CaughtUp plain (machine.after commands) (machine.history commands) :=
    history_invariant (CaughtUp plain) (fun _ _ _ single before => before.keeps single) start
      commands
  refine ⟨machine.map_command_history commands, caughtUp.replayed, caughtUp.same.symm, ?_⟩
  intro result next step paused
  have pauses := (status_step_eq_paused_iff step).mp paused
  rw [step_of_pauses pauses] at step
  cases step
  rfl

end Machine

/-- A breakpoint at the start pauses the first step, and the second goes past the word there. -/
theorem Machine.breakpoints_transparent_at_start :
    let machine := create 0 ⟨true, true⟩
    let stopped := machine.after [.addBreakpoint 0x200]
    let kept := visible (machine.history [.addBreakpoint 0x200, .step, .step])
    (machine.history [.addBreakpoint 0x200, .step, .step]).length = 3 ∧ kept.length = 1 ∧
      (machine.history [.addBreakpoint 0x200, .step, .step]).map Turn.command =
        [.addBreakpoint 0x200, .step, .step] ∧
      machine.history (kept.map Turn.command) = kept ∧
      stopped.step = .ok stopped.pause ∧ stopped.pause.2.state = stopped.state := by
  intro machine stopped kept
  have pauses : stopped.pauses = true := by rfl
  have transparent :=
    breakpoints_transparent machine [] none [.addBreakpoint 0x200, .step, .step]
  have untouched := (breakpoints_transparent machine [] none [.addBreakpoint 0x200]).2.2.2
  refine ⟨by decide +kernel, by decide +kernel, transparent.1 (by decide), transparent.2.1,
    step_of_pauses pauses, ?_⟩
  exact untouched _ _ (step_of_pauses pauses) rfl

end Chip8
