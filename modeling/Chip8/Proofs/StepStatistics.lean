import Chip8.Proofs.RandomStream
import Chip8.Proofs.Tallies

/-!
# Statistics of steps

The statistics of a machine account for every step since they were last reset: for its status, and
for the name of its instruction if that is tracked.  Only a pause and a word that is no instruction
have no name, so if every name is tracked, the counts of the instructions fall short of the number of
steps by the counts of these two statuses.
-/

namespace Chip8

/-! ## Counting results -/

namespace Statistics

/-- The name of the instruction of a step, if it is to be counted. -/
def trackedName (tracked : Option (List String)) (result : StepResult) : Option String :=
  result.name.filter (start tracked).tracks

theorem tracks_start_iff (tracked : Option (List String)) (name : String) :
    (start tracked).tracks name = true ↔ ∀ names, tracked = some names → name ∈ names := by
  cases tracked <;> simp [tracks, start]

section Names

variable {tracked : Option (List String)} {name : String}

theorem trackedName_eq_some_iff {result : StepResult} :
    trackedName tracked result = some name ↔
      result.name = some name ∧ (start tracked).tracks name = true :=
  Option.filter_eq_some_iff

/-- For a name that is tracked it makes no difference which names are. -/
theorem trackedName_beq (tracks : (start tracked).tracks name = true) (result : StepResult) :
    (trackedName tracked result == some name) = (result.name == some name) := by
  rw [Bool.eq_iff_iff, beq_iff_eq, beq_iff_eq, trackedName_eq_some_iff]
  exact and_iff_left tracks

end Names

theorem countName_eq (statistics : Statistics) (name : Option String) :
    statistics.countName name =
      (name.filter statistics.tracks).elim statistics.instructions statistics.instructions.add := by
  cases name with
  | none => rfl
  | some name =>
      rw [countName, Option.filter_some]
      split <;> rfl

/-- Counting results from nothing makes a tally of their statuses and one of their names. -/
theorem foldl_count (tracked : Option (List String)) (results : List StepResult) :
    results.foldl count (start tracked) =
      { tracked
        steps := results.length
        statuses := .of (results.filterMap fun result => some result.status)
        instructions := .of (results.filterMap (trackedName tracked)) } := by
  induction results using List.reverseRecOn with
  | nil => rfl
  | append_singleton results result ih =>
      rw [List.foldl_append, ih, Tally.of_filterMap_concat, Tally.of_filterMap_concat,
        List.length_append, List.foldl_cons, List.foldl_nil, count, countName_eq]
      rfl

theorem tracked_foldl_count (statistics : Statistics) (results : List StepResult) :
    (results.foldl count statistics).tracked = statistics.tracked := by
  induction results generalizing statistics with
  | nil => rfl
  | cons result results ih => exact ih (statistics.count result)

/-- Statistics that account for results: the number of results, the number of those with each status
and the number of those with each name that is tracked. -/
structure AccountFor (statistics : Statistics) (tracked : Option (List String))
    (results : List StepResult) : Prop where
  steps : statistics.steps = results.length
  /-- Just the statuses that occurred are listed, with the numbers of their occurrences. -/
  mem_statuses (status : StepStatus) (count : Nat) :
    (status, count) ∈ statistics.statuses.counts ↔
      0 < count ∧ count = results.countP fun result => result.status == status
  sum_statuses : (statistics.statuses.counts.map Prod.snd).sum = statistics.steps
  /-- The statuses are listed by first occurrence. -/
  statuses_ordered : statistics.statuses.counts.Pairwise fun left right =>
    results.findIdx (fun result => result.status == left.1) <
      results.findIdx (fun result => result.status == right.1)
  /-- Just the tracked names that occurred are listed, with the numbers of their occurrences. -/
  mem_instructions (name : String) (count : Nat) :
    (name, count) ∈ statistics.instructions.ranked ↔
      (∀ names, tracked = some names → name ∈ names) ∧ 0 < count ∧
        count = results.countP fun result => result.name == some name
  /-- The names are listed by falling count, and by first occurrence where counts are equal. -/
  instructions_ordered : statistics.instructions.ranked.Pairwise fun left right =>
    right.2 < left.2 ∨ right.2 = left.2 ∧
      results.findIdx (fun result => result.name == some left.1) <
        results.findIdx (fun result => result.name == some right.1)

section Account

variable (tracked : Option (List String)) (results : List StepResult)

theorem mem_ranked_names (name : String) (count : Nat) :
    (name, count) ∈ (Tally.of (results.filterMap (trackedName tracked))).ranked ↔
      (∀ names, tracked = some names → name ∈ names) ∧ 0 < count ∧
        count = results.countP fun result => result.name == some name := by
  rw [(Tally.ranked_perm _).mem_iff, Tally.mem_counts_of_filterMap, ← tracks_start_iff]
  cases tracks : (start tracked).tracks name with
  | true => simp only [trackedName_beq tracks, true_and]
  | false =>
      have none_counted :
          results.countP (fun result => trackedName tracked result == some name) = 0 := by
        refine List.countP_eq_zero.mpr fun result _ counted => ?_
        rw [(trackedName_eq_some_iff.mp (beq_iff_eq.mp counted)).2] at tracks
        cases tracks
      rw [none_counted]
      refine iff_of_false ?_ nofun
      rintro ⟨positive, rfl⟩
      exact Nat.lt_irrefl 0 positive

theorem pairwise_ranked_names :
    (Tally.of (results.filterMap (trackedName tracked))).ranked.Pairwise fun left right =>
      right.2 < left.2 ∨ right.2 = left.2 ∧
        results.findIdx (fun result => result.name == some left.1) <
          results.findIdx (fun result => result.name == some right.1) := by
  have listed := Tally.pairwise_counts_of_filterMap (trackedName tracked) results
  refine (Tally.pairwise_ranked _ listed).imp_of_mem fun {left right} left_among right_among => ?_
  have left_tracked := (tracks_start_iff _ _).mpr ((mem_ranked_names _ _ _ _).mp left_among).1
  have right_tracked := (tracks_start_iff _ _).mpr ((mem_ranked_names _ _ _ _).mp right_among).1
  simp only [trackedName_beq left_tracked, trackedName_beq right_tracked]
  exact id

theorem accountFor_foldl_count :
    (results.foldl count (start tracked)).AccountFor tracked results := by
  rw [foldl_count]
  constructor
  · rfl
  · exact fun status number => Tally.mem_counts_of_filterMap _ results
  · rw [Tally.sum_counts_of, List.filterMap_eq_map', List.length_map]
  · exact Tally.pairwise_counts_of_filterMap (fun result => some result.status) results
  · exact mem_ranked_names tracked results
  · exact pairwise_ranked_names tracked results

end Account

end Statistics

/-! ## Names of steps -/

variable [RandomSource]

namespace Machine

/-- The result of a step has a name unless the machine paused or the word is no instruction. -/
theorem name_step_eq_none_iff {machine next : Machine} {result : StepResult}
    (step : machine.step = .ok (result, next)) :
    result.name = none ↔ result.status = .invalidOpcode ∨ result.status = .pausedAtBreakpoint := by
  cases stepsTo_of_step step with
  | paused => exact iff_of_true rfl (.inr rfl)
  | invalid => exact iff_of_true rfl (.inl rfl)
  | refused | awaiting | completed =>
      refine iff_of_false nofun ?_
      rintro (invalid | paused)
      · cases invalid
      · cases paused

end Machine

/-- Results of which just the pauses and the words that are no instruction have no name. -/
def NamedByStatus (results : List StepResult) : Prop :=
  ∀ result ∈ results,
    result.name = none ↔ result.status = .invalidOpcode ∨ result.status = .pausedAtBreakpoint

theorem namedByStatus_history (machine : Machine) (commands : List Command) :
    NamedByStatus ((machine.history commands).filterMap Turn.report?) := by
  rw [← machine.map_fst_trace]
  intro result member
  obtain ⟨step, among, rfl⟩ := List.mem_map.mp member
  obtain ⟨before, next, made⟩ := Machine.exists_step_of_mem_trace step among
  exact Machine.name_step_eq_none_iff made

omit [RandomSource] in
/-- Every result has a name or one of the two statuses without. -/
theorem NamedByStatus.countP_add {results : List StepResult} (named : NamedByStatus results) :
    results.countP (fun result => result.name.isSome) +
        results.countP (fun result => result.status == .invalidOpcode) +
        results.countP (fun result => result.status == .pausedAtBreakpoint) = results.length := by
  induction results with
  | nil => rfl
  | cons result results ih =>
      have own := named result List.mem_cons_self
      have rest := ih fun other member => named other (List.mem_cons_of_mem result member)
      simp only [List.countP_cons, List.length_cons, ← rest]
      cases name_eq : result.name with
      | none =>
          rcases own.mp name_eq with status | status
          · simp [status]
            omega
          · simp [status]
            omega
      | some name =>
          rw [name_eq] at own
          have others := not_or.mp fun status => nomatch own.mpr status
          simp [others.1, others.2]
          omega

omit [RandomSource] in
theorem Statistics.sum_names {results : List StepResult} (named : NamedByStatus results) :
    ((results.foldl count (start none)).instructions.ranked.map Prod.snd).sum +
        results.countP (fun result => result.status == .invalidOpcode) +
        results.countP (fun result => result.status == .pausedAtBreakpoint) = results.length := by
  have every (result : StepResult) : trackedName none result = result.name := by
    rw [trackedName]
    cases result.name <;> rfl
  rw [foldl_count, Tally.sum_ranked, Tally.sum_counts_of, List.length_filterMap_eq_countP]
  simp only [every]
  exact named.countP_add

/-! ## Machines that are watched -/

/-- What a host does with a machine while the steps are counted. -/
inductive WatchedAct where
  /-- Tell the machine something. -/
  | tell (command : Command)
  /-- Forget all counts. -/
  | reset

/-- A machine with the statistics of its steps. -/
structure Watched where
  /-- The machine. -/
  machine : Machine
  /-- What has been counted. -/
  statistics : Statistics

namespace Watched

/-- Do one thing.  The statistics take note of all that a command shows to observers. -/
def act (watched : Watched) : WatchedAct → Watched
  | .tell command =>
    let activity := watched.machine.perform command
    ⟨activity.machine, watched.statistics.observeAll activity.events⟩
  | .reset => { watched with statistics := watched.statistics.reset }

/-- Do things in order. -/
def actAll (watched : Watched) (acts : List WatchedAct) : Watched :=
  acts.foldl act watched

theorem actAll_append (watched : Watched) (front back : List WatchedAct) :
    watched.actAll (front ++ back) = (watched.actAll front).actAll back :=
  List.foldl_append

/-- Of all events only steps are counted. -/
theorem observeAll_eq (statistics : Statistics) (events : List Event) :
    statistics.observeAll events =
      ((events.filterMap Event.step?).map Prod.fst).foldl Statistics.count statistics := by
  induction events generalizing statistics with
  | nil => rfl
  | cons event events ih =>
      cases event with
      | romLoaded | batchEnded => exact ih statistics
      | stepped result state => exact ih (statistics.count result)

/-- Commands are counted as the reports of their history. -/
theorem actAll_tell (watched : Watched) (commands : List Command) :
    watched.actAll (commands.map .tell) =
      ⟨watched.machine.after commands,
        ((watched.machine.history commands).filterMap Turn.report?).foldl Statistics.count
          watched.statistics⟩ := by
  rw [← Machine.map_fst_trace]
  induction commands generalizing watched with
  | nil => rfl
  | cons command commands ih =>
      rw [List.map_cons, actAll, List.foldl_cons]
      refine (ih (watched.act (.tell command))).trans ?_
      rw [Machine.trace, List.map_append, List.foldl_append, act, observeAll_eq]
      rfl

theorem tracked_actAll (watched : Watched) (acts : List WatchedAct) :
    (watched.actAll acts).statistics.tracked = watched.statistics.tracked := by
  induction acts generalizing watched with
  | nil => rfl
  | cons first acts ih =>
      refine (ih (watched.act first)).trans ?_
      cases first with
      | reset => rfl
      | tell command =>
          rw [act, observeAll_eq]
          exact Statistics.tracked_foldl_count watched.statistics _

omit [RandomSource] in
/-- What has been done ends in the commands since the last reset, or consists of commands alone. -/
theorem exists_last_reset (acts : List WatchedAct) :
    ∃ (front : List WatchedAct) (commands : List Command), acts = front ++ commands.map .tell ∧
      (front = [] ∨ ∃ earlier, front = earlier ++ [.reset]) := by
  induction acts using List.reverseRecOn with
  | nil => exact ⟨[], [], rfl, .inl rfl⟩
  | append_singleton acts last ih =>
      cases last with
      | reset => exact ⟨acts ++ [.reset], [], by simp, .inr ⟨acts, rfl⟩⟩
      | tell command =>
          obtain ⟨front, commands, rfl, reset⟩ := ih
          exact ⟨front, commands ++ [command], by simp, reset⟩

end Watched

/-- Whatever has been done with a machine whose steps are counted, the statistics account for the
reports of the commands since the last reset, or since the beginning if there was none: they give the
number of these reports, the number of those with each status and, for the names that are tracked,
the number of those with each name.  If all names are tracked, the counts of the names and of the
two statuses that come without a name add up to the number of the reports. -/
theorem statistics_account_for_every_step (machine : Machine) (tracked : Option (List String))
    (acts : List WatchedAct) :
    let start : Watched := ⟨machine, .start tracked⟩
    let statistics := (start.actAll acts).statistics
    ∃ (front : List WatchedAct) (commands : List Command), acts = front ++ commands.map .tell ∧
      (front = [] ∨ ∃ earlier, front = earlier ++ [.reset]) ∧
      let results := ((start.actAll front).machine.history commands).filterMap Turn.report?
      statistics.AccountFor tracked results ∧
        (tracked = none →
          (statistics.instructions.ranked.map Prod.snd).sum +
              results.countP (fun result => result.status == .invalidOpcode) +
              results.countP (fun result => result.status == .pausedAtBreakpoint) =
            statistics.steps) := by
  intro start statistics
  obtain ⟨front, commands, split, reset⟩ := Watched.exists_last_reset acts
  have fresh : (start.actAll front).statistics = .start tracked := by
    rcases reset with rfl | ⟨earlier, rfl⟩
    · rfl
    · rw [Watched.actAll_append]
      exact congrArg Statistics.start (start.tracked_actAll earlier)
  refine ⟨front, commands, split, reset, ?_⟩
  intro results
  have counted : statistics = results.foldl Statistics.count (.start tracked) := by
    change (start.actAll acts).statistics = _
    rw [split, Watched.actAll_append, Watched.actAll_tell, fresh]
  have accounted : statistics.AccountFor tracked results :=
    counted ▸ Statistics.accountFor_foldl_count tracked results
  refine ⟨accounted, ?_⟩
  rintro rfl
  rw [accounted.steps, counted]
  exact Statistics.sum_names (namedByStatus_history _ commands)

end Chip8
