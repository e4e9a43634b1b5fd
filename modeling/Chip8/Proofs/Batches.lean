import Chip8.Proofs.SingleCommand

/-!
# Batches

A batch makes one step after the other until it has made as many as it may, a step halts it, or a
step faults.  Observers are told of each step with the state after it, and of the end if the batch
comes to one; a fault that cuts the batch short is passed on instead, and the machine stays where
the steps before it have led.  A progress bar follows the steps and changes nothing of this.
-/

namespace Chip8

/-- The statuses that end a batch before its limit. -/
def haltingStatuses : List StepStatus :=
  [.invalidOpcode, .pausedAtBreakpoint, .notImplemented]

theorem StepStatus.halts_iff_mem (status : StepStatus) :
    status.halts = true ↔ status ∈ haltingStatuses := by
  cases status <;> decide

/-- A reply without its bar. -/
def Reply.withoutBar : Reply → Reply
  | .ran last _ => .ran last none
  | reply => reply

/-- A bar that is told of each of some further steps when it is made. -/
def ProgressBar.follow (bar : ProgressBar) (done : Nat) : Nat → ProgressBar
  | 0 => bar
  | count + 1 => (bar.update (done + 1 : Nat)).follow (done + 1) count

variable [RandomSource]

/-- What observers are told of steps. -/
def Event.ofSteps (steps : List (StepResult × State)) : List Event :=
  steps.map fun (result, state) => .stepped result state

/-- A run has come to its end, after all the steps that it might make or at one that halts. -/
structure Activity.Completes (activity : Activity) (limit : Int)
    (steps : List (StepResult × State)) : Prop where
  reply : ∃ bar, activity.reply = .ok (.ran (steps.getLast?.map Prod.fst) bar)
  events : activity.events =
    Event.ofSteps steps ++ [.batchEnded steps.length (steps.getLast?.map Prod.fst)]
  short : steps.length < limit →
    ∃ step, steps.getLast? = some step ∧ step.1.status ∈ haltingStatuses

/-- A fault of the step after some steps has cut a run short. -/
structure Activity.CutShort (activity : Activity) (limit : Int)
    (steps : List (StepResult × State)) : Prop where
  fault : ∃ fault, activity.machine.step = .error fault ∧ activity.reply = .error fault ∧
    (fault = .stackUnderflow ∨ ∃ pointer, fault = .stackOverflow pointer)
  events : activity.events = Event.ofSteps steps
  short : steps.length < limit
  goes_on : ∀ step ∈ steps, step.1.status ∉ haltingStatuses

namespace Machine

/-! ## Steps in a row -/

/-- Steps in a row that lead from one machine to another, each with its report and the state after
it. -/
inductive Walk : Machine → List (StepResult × State) → Machine → Prop
  | refl (machine : Machine) : Walk machine [] machine
  | head {machine next last : Machine} {result : StepResult} {steps : List (StepResult × State)} :
      machine.step = .ok (result, next) →
      Walk next steps last →
      Walk machine ((result, next.state) :: steps) last

/-! ## Equations of a batch -/

section Equations

variable {machine next : Machine} {result : StepResult}

theorem runFrom_of_error {fault : Fault} (step : machine.step = .error fault)
    (bar : Option ProgressBar) (done : Nat) (last : Option StepResult) (remaining : Nat) :
    machine.runFrom bar done last (remaining + 1) =
      ⟨machine, [], some fault, bar, done + 1, last⟩ := by
  simp only [runFrom, step]

theorem runFrom_of_halts (step : machine.step = .ok (result, next))
    (halts : result.status.halts = true) (bar : Option ProgressBar) (done : Nat)
    (last : Option StepResult) (remaining : Nat) :
    machine.runFrom bar done last (remaining + 1) =
      ⟨next, [(result, next.state)], none, bar.map (·.update (done + 1 : Nat)), done + 1,
        some result⟩ := by
  simp only [runFrom, step, halts, if_true]

theorem runFrom_of_goes_on (step : machine.step = .ok (result, next))
    (goes_on : result.status.halts = false) (bar : Option ProgressBar) (done : Nat)
    (last : Option StepResult) (remaining : Nat) :
    machine.runFrom bar done last (remaining + 1) =
      let rest := next.runFrom (bar.map (·.update (done + 1 : Nat))) (done + 1) (some result)
        remaining
      { rest with steps := (result, next.state) :: rest.steps } := by
  simp only [runFrom, step, goes_on, Bool.false_eq_true, if_false]

end Equations

/-- The bar of a batch follows its steps, the batch counts on from where it starts and keeps the
report that it starts with until there is another.  Nothing else depends on these three. -/
theorem runFrom_eq_follow (machine : Machine) (bar : Option ProgressBar) (done : Nat)
    (last : Option StepResult) (remaining : Nat) :
    machine.runFrom bar done last remaining =
      let plain := machine.runFrom none 0 none remaining
      { plain with
        bar := bar.map (·.follow done plain.steps.length)
        count := done + plain.count
        last := plain.last.or last } := by
  induction remaining generalizing machine bar done last with
  | zero => cases bar <;> rfl
  | succ remaining ih =>
      cases step : machine.step with
      | error fault =>
          rw [runFrom_of_error step, runFrom_of_error step]
          cases bar <;> rfl
      | ok outcome =>
          obtain ⟨result, next⟩ := outcome
          cases halts : result.status.halts with
          | true =>
              rw [runFrom_of_halts step halts, runFrom_of_halts step halts]
              cases bar <;> rfl
          | false =>
              rw [runFrom_of_goes_on step halts, runFrom_of_goes_on step halts,
                ih next _ (done + 1), ih next _ (0 + 1)]
              simp only [Option.or_assoc, Option.some_or, Nat.add_assoc, Nat.zero_add]
              cases bar <;> rfl

theorem bar_runFrom_none (machine : Machine) (done : Nat) (last : Option StepResult)
    (remaining : Nat) : (machine.runFrom none done last remaining).bar = none :=
  congrArg Batch.bar (machine.runFrom_eq_follow none done last remaining)

/-! ## The count and the report that a batch keeps -/

/-- A batch counts its steps, and the one that faults if one does. -/
theorem count_runFrom (machine : Machine) (bar : Option ProgressBar) (done : Nat)
    (last : Option StepResult) (remaining : Nat) :
    let batch := machine.runFrom bar done last remaining
    batch.count = done + batch.steps.length + batch.fault.toList.length := by
  fun_induction runFrom machine bar done last remaining with
  | case1 | case2 | case3 => rfl
  | case4 machine bar done last remaining count result next step shown goes_on rest ih =>
      have counts : rest.count = count + rest.steps.length + rest.fault.toList.length := ih
      dsimp only
      rw [counts, List.length_cons]
      omega

/-- A batch keeps the report of its last step, and until there is one the report that it starts
with. -/
theorem last_runFrom (machine : Machine) (bar : Option ProgressBar) (done : Nat)
    (last : Option StepResult) (remaining : Nat) :
    let batch := machine.runFrom bar done last remaining
    batch.last = (batch.steps.getLast?.map Prod.fst).or last := by
  fun_induction runFrom machine bar done last remaining with
  | case1 | case2 | case3 => rfl
  | case4 machine bar done last remaining count result next step shown goes_on rest ih =>
      have keeps : rest.last = (rest.steps.getLast?.map Prod.fst).or (some result) := ih
      dsimp only
      rw [keeps, List.getLast?_cons]
      cases rest.steps.getLast? <;> rfl

/-! ## What a batch comes to -/

/-- What a batch comes to that starts at a machine and may make so many steps. -/
structure Batch.Concludes (batch : Batch) (machine : Machine) (limit : Nat) : Prop where
  walk : machine.Walk batch.steps batch.machine
  bounded : batch.steps.length ≤ limit
  /-- No step but the last one halts. -/
  goes_on : ∀ step ∈ batch.steps.dropLast, step.1.status.halts = false
  /-- Without a fault only a step that halts leaves some of the steps to be made. -/
  complete : batch.fault = none → batch.steps.length < limit →
    ∃ step, batch.steps.getLast? = some step ∧ step.1.status.halts = true
  /-- A fault is that of the next step, which a batch makes only if it may and nothing halted. -/
  cut : ∀ fault, batch.fault = some fault → batch.machine.step = .error fault ∧
    batch.steps.length < limit ∧ ∀ step ∈ batch.steps, step.1.status.halts = false

theorem Batch.Concludes.cons {machine next : Machine} {result : StepResult} {rest : Batch}
    {limit : Nat} (concludes : rest.Concludes next limit)
    (step : machine.step = .ok (result, next)) (goes_on : result.status.halts = false) :
    Batch.Concludes { rest with steps := (result, next.state) :: rest.steps } machine
      (limit + 1) where
  walk := .head step concludes.walk
  bounded := Nat.succ_le_succ concludes.bounded
  goes_on := by
    intro other member
    cases steps : rest.steps with
    | nil =>
        rw [steps] at member
        cases member
    | cons second others =>
        simp only [steps, List.dropLast_cons_cons, List.mem_cons] at member
        rcases member with rfl | later
        · exact goes_on
        · exact concludes.goes_on other (steps ▸ later)
  complete := by
    intro no_fault short
    obtain ⟨last, is_last, halts⟩ := concludes.complete no_fault (Nat.lt_of_succ_lt_succ short)
    refine ⟨last, ?_, halts⟩
    rw [List.getLast?_cons, is_last]
    rfl
  cut := by
    intro fault cut
    obtain ⟨faults, short, others⟩ := concludes.cut fault cut
    refine ⟨faults, Nat.succ_lt_succ short, fun other member => ?_⟩
    rcases List.mem_cons.mp member with rfl | later
    · exact goes_on
    · exact others other later

theorem concludes_runFrom (machine : Machine) (bar : Option ProgressBar) (done : Nat)
    (last : Option StepResult) (remaining : Nat) :
    (machine.runFrom bar done last remaining).Concludes machine remaining := by
  fun_induction runFrom machine bar done last remaining with
  | case1 machine =>
      constructor
      · exact .refl machine
      all_goals simp
  | case2 machine bar done last remaining count fault step =>
      constructor
      · exact .refl machine
      all_goals simp [step]
  | case3 machine bar done last remaining count result next step shown halts =>
      constructor
      · exact .head step (.refl next)
      all_goals simp [halts]
  | case4 machine bar done last remaining count result next step shown goes_on rest ih =>
      exact ih.cons step (Bool.eq_false_iff.mpr goes_on)

/-! ## What a batch shows -/

/-- What a batch brings about under a bar. -/
def Batch.activity (batch : Batch) (bar : Option ProgressBar) : Activity :=
  match batch.fault with
  | none =>
    ⟨batch.machine, .ok (.ran batch.last bar),
      Event.ofSteps batch.steps ++ [.batchEnded batch.count batch.last]⟩
  | some fault => ⟨batch.machine, .error fault, Event.ofSteps batch.steps⟩

@[simp]
theorem Batch.machine_activity (batch : Batch) (bar : Option ProgressBar) :
    (batch.activity bar).machine = batch.machine := by
  rw [activity]
  split <;> rfl

theorem Batch.activity_of_fault {batch : Batch} {fault : Fault} (cut : batch.fault = some fault)
    (bar : Option ProgressBar) :
    batch.activity bar = ⟨batch.machine, .error fault, Event.ofSteps batch.steps⟩ := by
  simp only [activity, cut]

theorem Batch.activity_of_no_fault {batch : Batch} (ended : batch.fault = none)
    (bar : Option ProgressBar) :
    batch.activity bar =
      ⟨batch.machine, .ok (.ran batch.last bar),
        Event.ofSteps batch.steps ++ [.batchEnded batch.count batch.last]⟩ := by
  simp only [activity, ended]

/-! ## Runs -/

section Runs

variable {machine : Machine} {limit : Int} {options : Option BarOptions}

theorem run_without_bar (machine : Machine) (limit : Int) :
    machine.run limit none = machine.runFrom none 0 none limit.toNat := by
  have no_bar := machine.bar_runFrom_none 0 none limit.toNat
  simp only [run, Option.map_none, ite_self]
  generalize machine.runFrom none 0 none limit.toNat = plain at no_bar ⊢
  cases plain
  cases no_bar
  rfl

theorem run_eq_follow (machine : Machine) (limit : Int) (options : Option BarOptions) :
    machine.run limit options =
      let plain := machine.run limit none
      let bar := if 0 < limit then options.map (ProgressBar.start limit) else none
      { plain with bar := bar.map fun bar => (bar.follow 0 plain.steps.length).close } := by
  have follows := machine.runFrom_eq_follow
    (if 0 < limit then options.map (ProgressBar.start limit) else none) 0 none limit.toNat
  simp only [run, Option.map_none, ite_self, follows, Option.map_map, Nat.zero_add, Option.or_none]
  rfl

theorem bar_run (machine : Machine) (limit : Int) (options : Option BarOptions) :
    (machine.run limit options).bar =
      (if 0 < limit then options.map (ProgressBar.start limit) else none).map fun bar =>
        (bar.follow 0 (machine.run limit options).steps.length).close := by
  rw [run_eq_follow]

theorem concludes_run (machine : Machine) (limit : Int) (options : Option BarOptions) :
    (machine.run limit options).Concludes machine limit.toNat := by
  obtain ⟨walk, bounded, goes_on, complete, cut⟩ := machine.concludes_runFrom
    (if 0 < limit then options.map (ProgressBar.start limit) else none) 0 none limit.toNat
  exact ⟨walk, bounded, goes_on, complete, cut⟩

theorem count_run (machine : Machine) (limit : Int) (options : Option BarOptions) :
    let batch := machine.run limit options
    batch.count = batch.steps.length + batch.fault.toList.length := by
  have counts := machine.count_runFrom
    (if 0 < limit then options.map (ProgressBar.start limit) else none) 0 none limit.toNat
  simp only [Nat.zero_add] at counts
  exact counts

theorem last_run (machine : Machine) (limit : Int) (options : Option BarOptions) :
    let batch := machine.run limit options
    batch.last = batch.steps.getLast?.map Prod.fst := by
  have keeps := machine.last_runFrom
    (if 0 < limit then options.map (ProgressBar.start limit) else none) 0 none limit.toNat
  simp only [Option.or_none] at keeps
  exact keeps

theorem machine_perform_run (machine : Machine) (limit : Int) (bar : Option BarOptions) :
    (machine.perform (.run limit bar)).machine = (machine.run limit bar).machine := by
  simp only [perform, performRun]
  split <;> rfl

theorem perform_run_of_no_fault (ended : (machine.run limit options).fault = none) :
    machine.perform (.run limit options) =
      let batch := machine.run limit options
      ⟨batch.machine, .ok (.ran batch.last batch.bar),
        Event.ofSteps batch.steps ++ [.batchEnded batch.count batch.last]⟩ := by
  simp only [perform, performRun, ended]
  rfl

theorem perform_run_of_fault {fault : Fault}
    (cut : (machine.run limit options).fault = some fault) :
    machine.perform (.run limit options) =
      let batch := machine.run limit options
      ⟨batch.machine, .error fault, Event.ofSteps batch.steps⟩ := by
  simp only [perform, performRun, cut]
  rfl

/-- A run shows its batch, and the bar only adds itself. -/
theorem perform_run (machine : Machine) (limit : Int) (options : Option BarOptions) :
    machine.perform (.run limit options) =
      (machine.run limit none).activity (machine.run limit options).bar := by
  rw [perform, performRun, Batch.activity, run_eq_follow machine limit options]
  rfl

/-- A bar changes neither the machine nor what observers see, and only adds itself to the reply. -/
theorem perform_run_without_bar (machine : Machine) (limit : Int) (options : Option BarOptions) :
    let activity := machine.perform (.run limit options)
    let plain := machine.perform (.run limit none)
    activity.machine = plain.machine ∧ activity.events = plain.events ∧
      activity.reply.map Reply.withoutBar = plain.reply := by
  intro activity plain
  have no_bar : (machine.run limit none).bar = none := by
    rw [run_without_bar, bar_runFrom_none]
  rw [show activity = _ from machine.perform_run limit options,
    show plain = _ from machine.perform_run limit none, no_bar, Batch.activity, Batch.activity]
  split <;> exact ⟨rfl, rfl, rfl⟩

end Runs

/-! ## Reports of a run -/

/-- A run makes steps in a row, no more than it may and none after one that halts.  If it comes to
its end, observers have been told of these steps with the states after them and then once of the end
with their number and the last report, which is also the reply.  If the next step faults, they have
been told of these steps and of no end, the fault is the reply, and the machine is as after these
steps.  All this is the same with a bar and without. -/
theorem run_reports_its_steps (machine : Machine) (limit : Int) (options : Option BarOptions) :
    let activity := machine.perform (.run limit options)
    let plain := machine.perform (.run limit none)
    (∃ steps, machine.Walk steps activity.machine ∧ (steps.length : Int) ≤ max limit 0 ∧
        (∀ step ∈ steps.dropLast, step.1.status ∉ haltingStatuses) ∧
        (activity.Completes limit steps ∨ activity.CutShort limit steps)) ∧
      activity.machine = plain.machine ∧ activity.events = plain.events ∧
        activity.reply.map Reply.withoutBar = plain.reply := by
  intro activity plain
  refine ⟨?_, machine.perform_run_without_bar limit options⟩
  obtain ⟨walk, bounded, goes_on, complete, cut⟩ := machine.concludes_run limit options
  have not_halting {status : StepStatus} (goes_on : status.halts = false) :
      status ∉ haltingStatuses := by
    rw [← status.halts_iff_mem, goes_on]
    decide
  refine ⟨(machine.run limit options).steps, ?_, by omega,
    fun step member => not_halting (goes_on step member), ?_⟩
  · rw [show activity.machine = _ from machine.machine_perform_run limit options]
    exact walk
  cases outcome : (machine.run limit options).fault with
  | none =>
      left
      rw [show activity = _ from perform_run_of_no_fault outcome]
      dsimp only
      rw [count_run, last_run, outcome]
      refine ⟨⟨_, rfl⟩, rfl, fun short => ?_⟩
      obtain ⟨step, is_last, halts⟩ := complete outcome (by omega)
      exact ⟨step, is_last, step.1.status.halts_iff_mem.mp halts⟩
  | some fault =>
      right
      obtain ⟨faults, short, others⟩ := cut fault outcome
      rw [show activity = _ from perform_run_of_fault outcome]
      refine ⟨⟨fault, faults, rfl, ?_⟩, rfl, by omega,
        fun step member => not_halting (others step member)⟩
      rcases step_error_eq faults with underflow | overflow
      · exact .inl underflow
      · exact .inr ⟨_, overflow⟩

end Machine
end Chip8
