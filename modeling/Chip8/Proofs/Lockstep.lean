import Chip8.Proofs.History

/-!
# Machines in lockstep

Two machines that are related in some way can be compared command by command.  If what is allowed at
related machines shows the same on both and leaves them related, then so does every run whose single
commands are all allowed.  Batches are included: whether a batch goes on is read off its reports, so
both machines end it at the same step.
-/

namespace Chip8

/-- A turn with its report seen through a view. -/
def Turn.mapReport (view : StepResult → StepResult) : Turn → Turn
  | ⟨command, .ok (.stepped result)⟩ => ⟨command, .ok (.stepped (view result))⟩
  | turn => turn

theorem Turn.mapReport_id : Turn.mapReport id = id := by
  funext turn
  obtain ⟨command, reply⟩ := turn
  cases reply with
  | error fault => rfl
  | ok reply => cases reply <;> rfl

theorem Turn.mapReport_congr {view : StepResult → StepResult} {result other : StepResult}
    (report : view result = view other) :
    mapReport view ⟨.step, .ok (.stepped result)⟩ =
      mapReport view ⟨.step, .ok (.stepped other)⟩ := by
  simp only [mapReport, report]

namespace Machine

variable [RandomSource]

/-- The same fault, or reports that look the same and related machines. -/
inductive Agree (Related : Machine → Machine → Prop) (view : StepResult → StepResult) :
    Except Fault (StepResult × Machine) → Except Fault (StepResult × Machine) → Prop
  | fault (fault : Fault) : Agree Related view (.error fault) (.error fault)
  | ok {result other : StepResult} {leftNext rightNext : Machine}
      (report : view result = view other) (next : Related leftNext rightNext) :
      Agree Related view (.ok (result, leftNext)) (.ok (other, rightNext))

/-- Machines that find the same word, make the same of it and come to related machines by it. -/
structure Matches (Related : Machine → Machine → Prop) (view : StepResult → StepResult)
    (left right : Machine) : Prop where
  related : Related left right
  word : left.state.word = right.state.word
  pauses : left.pauses = right.pauses
  waits : ∀ instruction : Instruction, instruction.waits left.state = instruction.waits right.state
  report : ∀ status mnemonic name error,
    view (left.report status mnemonic name error) = view (right.report status mnemonic name error)
  paused : Related left.pause.2 right.pause.2
  passed : Related (left.proceed left.state.advance) (right.proceed right.state.advance)
  /-- Both refuse an instruction with the same fault, or both are related after it. -/
  acts : ∀ instruction : Instruction,
    (∃ fault, instruction.effects left.state.advance = .error fault ∧
        instruction.effects right.state.advance = .error fault) ∨
      ∃ effects others, instruction.effects left.state.advance = .ok effects ∧
        instruction.effects right.state.advance = .ok others ∧
        Related (left.proceed (Effect.applyAll effects left.state.advance))
          (right.proceed (Effect.applyAll others right.state.advance))

section Matches

variable {Related : Machine → Machine → Prop} {view : StepResult → StepResult}
  {left right : Machine}

theorem Matches.conclude (same : Matches Related view left right) (entry : Entry Operation)
    (mnemonic : String) (instruction : Instruction) :
    Agree Related view
      (left.conclude entry mnemonic (instruction.effects left.state.advance))
      (right.conclude entry mnemonic (instruction.effects right.state.advance)) := by
  rcases same.acts instruction with
    ⟨fault, left_refused, right_refused⟩ | ⟨effects, others, left_acts, right_acts, next⟩
  · rw [left_refused, right_refused]
    cases fault with
    | notImplemented refused word => exact .ok (same.report _ _ _ _) same.passed
    | _ => exact .fault _
  · rw [left_acts, right_acts]
    exact .ok (same.report _ _ _ _) next

/-- Machines that match agree on the next step. -/
theorem Matches.step (same : Matches Related view left right) :
    Agree Related view left.step right.step := by
  have same_pauses := same.pauses
  have word := same.word
  cases pauses : left.pauses with
  | true =>
      rw [step_of_pauses pauses, step_of_pauses (same_pauses ▸ pauses)]
      exact .ok (same.report _ _ _ _) same.paused
  | false =>
      have runs : right.pauses = false := same_pauses ▸ pauses
      rcases unknown_or_decodes left.state.word with
        unknown | ⟨entry, mnemonic, instruction, decodes⟩
      · rw [step_of_unknown pauses unknown, step_of_unknown runs (word ▸ unknown)]
        refine .ok ?_ same.passed
        rw [word]
        exact same.report _ _ _ _
      · rw [step_of_decodes pauses decodes, step_of_decodes runs (word ▸ decodes), same.waits]
        split
        · exact .ok (same.report _ _ _ _) same.related
        · exact same.conclude entry mnemonic instruction

/-- A request that is refused in two states with the same fault, or granted in both and leaves them
alike, gets the same reply from their machines. -/
theorem request_of_onState {Alike : State → State → Prop} {command : Command}
    (related : Related left right) (request : command.isRequest = true)
    (outcomes : (∃ fault, command.onState left.state = .error fault ∧
        command.onState right.state = .error fault) ∨
      ∃ leftNext rightNext, command.onState left.state = .ok leftNext ∧
        command.onState right.state = .ok rightNext ∧ Alike leftNext rightNext)
    (granted : ∀ {leftNext rightNext}, command.onState left.state = .ok leftNext →
      command.onState right.state = .ok rightNext →
        Alike (left.perform command).machine.state (right.perform command).machine.state →
          Related (left.perform command).machine (right.perform command).machine) :
    (left.perform command).reply = (right.perform command).reply ∧
      Related (left.perform command).machine (right.perform command).machine := by
  rcases outcomes with
    ⟨fault, left_refused, right_refused⟩ | ⟨leftNext, rightNext, left_granted, right_granted, alike⟩
  · rw [perform_request_error request left_refused, perform_request_error request right_refused]
    exact ⟨rfl, related⟩
  · obtain ⟨left_reply, left_state⟩ := perform_request_ok request left_granted
    obtain ⟨right_reply, right_state⟩ := perform_request_ok request right_granted
    refine ⟨left_reply.trans right_reply.symm, granted left_granted right_granted ?_⟩
    rw [left_state, right_state]
    exact alike

end Matches

/-- Each of some single commands is allowed at the machine that it is given to. -/
def Permits (allowed : Machine → Command → Prop) (machine : Machine) (singles : List Command) :
    Prop :=
  ∀ done command, done ++ [command] <+: singles → allowed (machine.after done) command

section Permits

variable {allowed : Machine → Command → Prop} {machine : Machine}

theorem permits_append {front back : List Command}
    (permits : machine.Permits allowed (front ++ back)) :
    machine.Permits allowed front ∧ (machine.after front).Permits allowed back := by
  constructor
  · intro done command early
    exact permits done command (early.trans (List.prefix_append front back))
  · intro done command early
    rw [← after_append]
    refine permits (front ++ done) command ?_
    rw [List.append_assoc]
    exact (List.prefix_append_right_inj front).mpr early

theorem permits_cons {command : Command} {singles : List Command}
    (permits : machine.Permits allowed (command :: singles)) :
    allowed machine command ∧ (machine.perform command).machine.Permits allowed singles := by
  obtain ⟨first, rest⟩ := @permits_append _ allowed machine [command] singles permits
  exact ⟨first [] command List.prefix_rfl, rest⟩

theorem permits_singles_append {front back : List Command}
    (permits : machine.Permits allowed (machine.singles (front ++ back))) :
    machine.Permits allowed (machine.singles front) ∧
      (machine.after front).Permits allowed ((machine.after front).singles back) := by
  rw [singles_append] at permits
  have split := permits_append permits
  rwa [(machine.singles_spec front).2] at split

end Permits

/-- Machines that stay related, and show the same through a view, under what is allowed. -/
structure Lockstep (Related : Machine → Machine → Prop) (view : StepResult → StepResult)
    (allowed : Machine → Command → Prop) : Prop where
  /-- The view shows how a step ended. -/
  status : ∀ result, (view result).status = result.status
  step : ∀ {left right}, Related left right → allowed left .step →
    Agree Related view left.step right.step
  request : ∀ {left right command}, Related left right → command.isRequest = true →
    allowed left command →
      (left.perform command).reply = (right.perform command).reply ∧
        Related (left.perform command).machine (right.perform command).machine

namespace Lockstep

variable {Related : Machine → Machine → Prop} {view : StepResult → StepResult}
  {allowed : Machine → Command → Prop} {left right : Machine}

theorem step_ok (lockstep : Lockstep Related view allowed) (related : Related left right)
    (permitted : allowed left .step) {result : StepResult} {next : Machine}
    (left_step : left.step = .ok (result, next)) :
    ∃ other rightNext, right.step = .ok (other, rightNext) ∧ Related next rightNext ∧
      view result = view other ∧ other.status = result.status := by
  have outcomes := lockstep.step related permitted
  rw [left_step] at outcomes
  generalize right_step : right.step = outcome at outcomes
  cases outcomes with
  | @ok _ other _ rightNext report next =>
      refine ⟨other, rightNext, rfl, next, report, ?_⟩
      rw [← lockstep.status other, ← report, lockstep.status]

theorem step_error (lockstep : Lockstep Related view allowed) (related : Related left right)
    (permitted : allowed left .step) {fault : Fault} (left_step : left.step = .error fault) :
    right.step = .error fault := by
  have outcomes := lockstep.step related permitted
  rw [left_step] at outcomes
  generalize right_step : right.step = outcome at outcomes
  cases outcomes
  rfl

theorem single (lockstep : Lockstep Related view allowed) (related : Related left right)
    {command : Command} (single : command.isBatch = false) (permitted : allowed left command) :
    Related (left.perform command).machine (right.perform command).machine ∧
      (left.turns command).map (Turn.mapReport view) =
        (right.turns command).map (Turn.mapReport view) := by
  rw [turns_of_single left single, turns_of_single right single]
  rcases Command.step_or_request single with rfl | request
  · cases left_step : left.step with
    | error fault =>
        have right_step := lockstep.step_error related permitted left_step
        rw [perform_step_error left_step, perform_step_error right_step]
        exact ⟨related, rfl⟩
    | ok outcome =>
        obtain ⟨other, rightNext, right_step, next, report, -⟩ :=
          lockstep.step_ok related permitted left_step
        rw [perform_step_ok left_step, perform_step_ok right_step]
        exact ⟨next, congrArg (fun turn => [turn]) (Turn.mapReport_congr report)⟩
  · obtain ⟨reply, next⟩ := lockstep.request related request permitted
    rw [reply]
    exact ⟨next, rfl⟩

/-- A batch ends at the same step on both machines. -/
theorem runFrom (lockstep : Lockstep Related view allowed) (related : Related left right)
    (leftBar rightBar : Option ProgressBar) (done : Nat) (leftLast rightLast : Option StepResult)
    (remaining : Nat)
    (permits : left.Permits allowed
      ((left.runFrom leftBar done leftLast remaining).turns.map Turn.command)) :
    Related (left.runFrom leftBar done leftLast remaining).machine
        (right.runFrom rightBar done rightLast remaining).machine ∧
      (left.runFrom leftBar done leftLast remaining).turns.map (Turn.mapReport view) =
        (right.runFrom rightBar done rightLast remaining).turns.map (Turn.mapReport view) := by
  induction remaining generalizing left right leftBar rightBar done leftLast rightLast with
  | zero => exact ⟨related, rfl⟩
  | succ remaining ih =>
      cases left_step : left.step with
      | error fault =>
          rw [runFrom_of_error left_step] at permits ⊢
          have right_step := lockstep.step_error related (permits_cons permits).1 left_step
          rw [runFrom_of_error right_step]
          exact ⟨related, rfl⟩
      | ok outcome =>
          obtain ⟨result, leftNext⟩ := outcome
          cases halts : result.status.halts with
          | true =>
              rw [runFrom_of_halts left_step halts] at permits ⊢
              obtain ⟨other, rightNext, right_step, next, report, status⟩ :=
                lockstep.step_ok related (permits_cons permits).1 left_step
              rw [runFrom_of_halts right_step (status ▸ halts)]
              exact ⟨next, congrArg (fun turn => [turn]) (Turn.mapReport_congr report)⟩
          | false =>
              rw [runFrom_of_goes_on left_step halts] at permits ⊢
              obtain ⟨permitted, later⟩ := permits_cons permits
              obtain ⟨other, rightNext, right_step, next, report, status⟩ :=
                lockstep.step_ok related permitted left_step
              rw [runFrom_of_goes_on right_step (status ▸ halts)]
              rw [perform_step_ok left_step] at later
              obtain ⟨rest, turns⟩ := ih next _ (rightBar.map (·.update (done + 1 : Nat)))
                (done + 1) _ (some other) later
              exact ⟨rest, List.cons_eq_cons.mpr ⟨Turn.mapReport_congr report, turns⟩⟩

theorem perform (lockstep : Lockstep Related view allowed) (related : Related left right)
    {command : Command}
    (permits : left.Permits allowed ((left.turns command).map Turn.command)) :
    Related (left.perform command).machine (right.perform command).machine ∧
      (left.turns command).map (Turn.mapReport view) =
        (right.turns command).map (Turn.mapReport view) := by
  cases batch : command.isBatch with
  | true =>
      obtain ⟨limit, bar, rfl⟩ := Command.eq_run_of_isBatch batch
      rw [machine_perform_run, machine_perform_run]
      exact lockstep.runFrom related _ _ 0 none none limit.toNat permits
  | false =>
      rw [turns_of_single left batch] at permits
      exact lockstep.single related batch (permits_cons permits).1

/-- Machines in lockstep show the same all through a run and stay related. -/
theorem run (lockstep : Lockstep Related view allowed) {commands : List Command}
    (related : Related left right) (permits : left.Permits allowed (left.singles commands)) :
    Related (left.after commands) (right.after commands) ∧
      (left.history commands).map (Turn.mapReport view) =
        (right.history commands).map (Turn.mapReport view) := by
  induction commands generalizing left right with
  | nil => exact ⟨related, rfl⟩
  | cons command commands ih =>
      obtain ⟨now, later⟩ := @permits_singles_append _ allowed left [command] commands permits
      rw [singles, history_cons, history_nil, List.append_nil] at now
      obtain ⟨next, turns⟩ := lockstep.perform related now
      obtain ⟨kept, rest⟩ := ih next later
      refine ⟨kept, ?_⟩
      rw [history_cons, history_cons, List.map_append, List.map_append, turns, rest]

end Lockstep
end Machine
end Chip8
