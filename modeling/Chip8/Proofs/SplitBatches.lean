import Chip8.Proofs.Batches

/-!
# Batches in two parts

A batch can be made in two parts.  If the first part faults or halts, it is already the whole batch,
however many steps might have followed.  Otherwise it has made all of its steps, and the second part
goes on from the machine that it has led to as the whole batch does.
-/

namespace Chip8

variable [RandomSource]

/-- The step that an event tells of. -/
def Event.step? : Event → Option (StepResult × State)
  | .stepped result state => some (result, state)
  | _ => none

@[simp]
theorem Event.filterMap_step?_ofSteps (steps : List (StepResult × State)) :
    (Event.ofSteps steps).filterMap Event.step? = steps := by
  rw [Event.ofSteps, List.filterMap_map]
  exact List.filterMap_some

/-- The steps that observers of an activity are told of, in order. -/
def Activity.steps (activity : Activity) : List (StepResult × State) :=
  activity.events.filterMap Event.step?

namespace Machine

/-- No step follows in a batch: its last step halts, or its next one faults. -/
def Batch.stops (batch : Batch) : Bool :=
  batch.fault.isSome || batch.last.any fun result => result.status.halts

theorem Batch.stops_iff (batch : Batch) :
    batch.stops = true ↔
      batch.fault ≠ none ∨ ∃ result, batch.last = some result ∧ result.status.halts = true := by
  rw [stops, Bool.or_eq_true, Option.isSome_iff_ne_none, Option.any_eq_true]

/-- Whether a batch stops is read off the report that it has kept and not off its steps. -/
theorem Batch.stops_with_steps (batch : Batch) (steps : List (StepResult × State)) :
    Batch.stops { batch with steps } = batch.stops := rfl

/-- A batch is its first part if that stops, and otherwise both parts in a row, the second going on
with the bar, the count and the report of the first. -/
theorem runFrom_add {last : Option StepResult}
    (goes_on : (last.any fun result => result.status.halts) = false) (machine : Machine)
    (bar : Option ProgressBar) (done first second : Nat) :
    machine.runFrom bar done last (first + second) =
      let front := machine.runFrom bar done last first
      if front.stops then front
      else
        let back := front.machine.runFrom front.bar front.count front.last second
        { back with steps := front.steps ++ back.steps } := by
  induction first generalizing machine bar done last with
  | zero => simp [runFrom, Batch.stops, goes_on]
  | succ first ih =>
      rw [Nat.succ_add]
      cases step : machine.step with
      | error fault =>
          rw [runFrom_of_error step, runFrom_of_error step]
          rfl
      | ok outcome =>
          obtain ⟨result, next⟩ := outcome
          cases halts : result.status.halts with
          | true =>
              rw [runFrom_of_halts step halts, runFrom_of_halts step halts]
              simp [Batch.stops, halts]
          | false =>
              have later : ((some result).any fun result => result.status.halts) = false := halts
              rw [runFrom_of_goes_on step halts, runFrom_of_goes_on step halts, ih later]
              generalize next.runFrom _ (done + 1) (some result) first = front
              cases stops : front.stops <;> simp [Batch.stops_with_steps, stops]

/-! ## Runs in two parts -/

@[simp]
theorem Batch.steps_activity (batch : Batch) (bar : Option ProgressBar) :
    (batch.activity bar).steps = batch.steps := by
  rw [activity]
  split <;> simp [Activity.steps, Event.step?]

section Parts

variable {machine : Machine} {first second : Nat}

/-- A run whose first part stops is over with that part. -/
theorem run_of_stops (stops : (machine.run first none).stops = true) :
    machine.run (first + second) none = machine.run first none := by
  have total : ((first : Int) + second).toNat = first + second := by omega
  rw [run_without_bar, Int.toNat_natCast] at stops
  rw [run_without_bar, run_without_bar, total, Int.toNat_natCast, runFrom_add rfl]
  exact if_pos stops

/-- A run whose first part does not stop goes on with the second part. -/
theorem run_of_goes_on (goes_on : (machine.run first none).stops = false) :
    machine.run (first + second) none =
      let front := machine.run first none
      let back := front.machine.run second none
      { back with
        steps := front.steps ++ back.steps
        count := front.count + back.count
        last := back.last.or front.last } := by
  have total : ((first : Int) + second).toNat = first + second := by omega
  rw [run_without_bar, Int.toNat_natCast] at goes_on
  simp only [run_without_bar, total, Int.toNat_natCast]
  rw [runFrom_add rfl]
  simp only [goes_on, Bool.false_eq_true, if_false, bar_runFrom_none]
  rw [runFrom_eq_follow _ none (Batch.count _)]

end Parts

/-- A run that may make a step faults or has a last report. -/
theorem exists_last_of_no_fault {machine : Machine} {limit : Nat} (positive : 0 < limit)
    (ended : (machine.run limit none).fault = none) :
    ∃ result, (machine.run limit none).last = some result := by
  rw [last_run]
  cases steps : (machine.run limit none).steps.getLast? with
  | some step => exact ⟨step.1, rfl⟩
  | none =>
      have short : (machine.run limit none).steps.length < (limit : Int).toNat := by
        rw [List.getLast?_eq_none_iff.mp steps, List.length_nil]
        omega
      obtain ⟨step, is_last, -⟩ := (machine.concludes_run limit none).complete ended short
      rw [steps] at is_last
      cases is_last

/-- What has been done before a batch does not change the reply to it if it has a last report of its
own. -/
theorem Batch.reply_activity_of_last {batch : Batch} {front : Batch}
    (reports : batch.fault = none → ∃ result, batch.last = some result)
    (wholeBar bar : Option ProgressBar) :
    (({ batch with
        steps := front.steps ++ batch.steps
        count := front.count + batch.count
        last := batch.last.or front.last } : Batch).activity wholeBar).reply.map
        Reply.withoutBar =
      (batch.activity bar).reply.map Reply.withoutBar := by
  cases ended : batch.fault with
  | some fault => simp only [activity, ended, Except.map]
  | none =>
      obtain ⟨result, kept⟩ := reports ended
      simp only [activity, ended, kept, Option.some_or, Except.map, Reply.withoutBar]

/-- A run can be made in two parts.  If the first part faults or comes to a step that halts, the
whole run is over with it: it has the same reply, leaves the same machine and shows the same to
observers.  Otherwise the second part goes on from the first to the machine that the whole run
leaves, observers are told of the same steps in all, and the reply to the second part, if it is to
make any steps, is the reply to the whole run.  Replies are compared without the bars, which are any
in all three runs. -/
theorem runs_compose (machine : Machine) (first second : Nat)
    (frontBar backBar wholeBar : Option BarOptions) :
    let front := machine.perform (.run first frontBar)
    let back := front.machine.perform (.run second backBar)
    let whole := machine.perform (.run (first + second) wholeBar)
    (∃ fault, front.reply = .error fault ∧ whole.reply = .error fault ∧
        whole.machine = front.machine ∧ whole.events = front.events) ∨
      (∃ result bar wholeBar, front.reply = .ok (.ran (some result) bar) ∧
        result.status ∈ haltingStatuses ∧ whole.reply = .ok (.ran (some result) wholeBar) ∧
        whole.machine = front.machine ∧ whole.events = front.events) ∨
      ∃ last bar, front.reply = .ok (.ran last bar) ∧
        (∀ result ∈ last, result.status ∉ haltingStatuses) ∧
        whole.machine = back.machine ∧ whole.steps = front.steps ++ back.steps ∧
        (0 < second → whole.reply.map Reply.withoutBar = back.reply.map Reply.withoutBar) := by
  intro front back whole
  have front_shown : front = _ := machine.perform_run first frontBar
  have back_shown : back = _ := front.machine.perform_run second backBar
  have whole_shown : whole = _ := machine.perform_run (first + second) wholeBar
  have front_machine : front.machine = (machine.run first none).machine := by
    rw [front_shown, Batch.machine_activity]
  rw [front_machine] at back_shown
  cases stops : (machine.run first none).stops with
  | true =>
      rw [run_of_stops stops] at whole_shown
      cases ended : (machine.run first none).fault with
      | some fault =>
          rw [Batch.activity_of_fault ended] at front_shown whole_shown
          rw [front_shown, whole_shown]
          exact .inl ⟨fault, rfl, rfl, rfl, rfl⟩
      | none =>
          obtain ⟨result, is_last, halts⟩ :=
            ((machine.run first none).stops_iff.mp stops).resolve_left (not_not_intro ended)
          rw [Batch.activity_of_no_fault ended, is_last] at front_shown whole_shown
          rw [front_shown, whole_shown]
          exact .inr (.inl ⟨result, _, _, rfl, result.status.halts_iff_mem.mp halts, rfl, rfl, rfl⟩)
  | false =>
      rw [run_of_goes_on stops] at whole_shown
      obtain ⟨no_fault, no_halt⟩ := not_or.mp
        (mt (machine.run first none).stops_iff.mpr (Bool.eq_false_iff.mp stops))
      have ended : (machine.run first none).fault = none := Classical.not_not.mp no_fault
      have front_reply := congrArg Activity.reply front_shown
      rw [Batch.activity_of_no_fault ended] at front_reply
      refine .inr (.inr ⟨_, _, front_reply, ?_, ?_, ?_, fun positive => ?_⟩)
      · intro result is_last halting
        exact no_halt ⟨result, is_last, result.status.halts_iff_mem.mpr halting⟩
      · rw [whole_shown, back_shown, Batch.machine_activity, Batch.machine_activity]
      · rw [whole_shown, front_shown, back_shown, Batch.steps_activity, Batch.steps_activity,
          Batch.steps_activity]
      · rw [whole_shown, back_shown]
        exact Batch.reply_activity_of_last (exists_last_of_no_fault positive) _ _

end Machine
end Chip8
