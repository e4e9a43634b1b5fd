import Mathlib.Algebra.Ring.Int.Defs
import Chip8.Proofs.Batches
import Chip8.Threefry

/-!
# Progress bars of batches

A bar that is told of every step of a batch has reported the whole strides among the steps so far,
or all of them once the batch is complete.  Taking the bar away reports nothing more, so the steps
behind the last whole stride of a batch that ends early are never reported.
-/

namespace Chip8
namespace ProgressBar

theorem strideOf_pos (total : Int) (chosen : Option Int) : 0 < strideOf total chosen := by
  cases chosen <;> simp only [strideOf] <;> omega

/-- What a bar tells the screen itself is never told once more by a further option. -/
theorem not_mem_own_of_mem_further (total : Int) (options : BarOptions) {name : String}
    (member : name ∈ (start total options).further) : name ∉ ["total", "desc", "unit"] := by
  obtain ⟨given, kept⟩ := List.mem_filter.mp (List.mem_mergeSort.mp member)
  have unreserved : name ∉ reserved := by simpa using kept
  have known : ∀ own ∈ ["total", "desc", "unit"], own ∈ takenNames ∨ own ∈ reserved := by decide
  intro own
  rcases known name own with taken | dropped
  · exact options.further.free name given taken
  · exact unreserved dropped

/-! ## Signals of a bar -/

section Signals

variable (bar : ProgressBar)

/-- Whether the bar reports when it is told of so many steps. -/
def ReportsAt (done : Int) : Prop :=
  bar.stride ≤ done - bar.reported ∨ bar.total ≤ done

theorem update_of_reportsAt {done : Int} (reports : bar.ReportsAt done) :
    bar.update done =
      { bar with reported := done, sent := .advance (done - bar.reported) :: bar.sent } :=
  if_pos reports

theorem update_of_not_reportsAt {done : Int} (quiet : ¬bar.ReportsAt done) :
    bar.update done = bar :=
  if_neg quiet

theorem advances_update_of_reportsAt {done : Int} (reports : bar.ReportsAt done) :
    (bar.update done).advances = bar.advances ++ [done - bar.reported] := by
  rw [bar.update_of_reportsAt reports]
  simp [advances, signals]

theorem signals_close : bar.close.signals = bar.signals ++ [.close] :=
  List.reverse_cons

@[simp]
theorem advances_close : bar.close.advances = bar.advances := by
  simp [advances, signals_close]

end Signals

/-! ## Whole strides -/

/-- One more step makes another whole stride just when a stride has been made since the last one. -/
theorem mul_ediv_succ {stride : Int} (positive : 0 < stride) (done : Int) :
    stride * ((done + 1) / stride) =
      if stride ≤ done + 1 - stride * (done / stride) then done + 1
      else stride * (done / stride) := by
  have split := Int.mul_ediv_add_emod done stride
  have rest_nonneg := Int.emod_nonneg done (Int.ne_of_gt positive)
  have rest_lt := Int.emod_lt_of_pos done positive
  split
  next full =>
    have filled : done + 1 = stride * (done / stride + 1) := by
      rw [Int.mul_add, Int.mul_one]
      omega
    rw [filled, Int.mul_ediv_cancel_left _ (Int.ne_of_gt positive)]
  next short =>
    have quotient : (done + 1) / stride = done / stride :=
      ((Int.ediv_emod_unique positive (r := done % stride + 1)).mpr
        ⟨by omega, by omega, by omega⟩).1
    rw [quotient]

/-- How many of the steps done in a batch a bar has reported: those in whole strides, or all of them
when the batch is complete. -/
def reportable (total stride done : Int) : Int :=
  if done = total then done else stride * (done / stride)

/-- Nothing is left unreported just when the batch is complete or the steps make whole strides. -/
theorem reportable_eq_iff {total stride done : Int} :
    reportable total stride done = done ↔ done = total ∨ stride ∣ done := by
  unfold reportable
  split
  next complete => simp [complete]
  next early =>
    rw [or_iff_right early]
    exact ⟨fun whole => ⟨_, whole.symm⟩, Int.mul_ediv_cancel'⟩

/-! ## A bar that follows a batch -/

/-- A bar that has been told of so many steps, one by one, of a batch. -/
structure Tracks (bar : ProgressBar) (total stride done : Int) : Prop where
  total_eq : bar.total = total
  stride_eq : bar.stride = stride
  reported_eq : bar.reported = reportable total stride done
  sum_advances : bar.advances.sum = bar.reported
  /-- Nothing but reports has been sent. -/
  signals_eq : bar.signals = bar.advances.map .advance

namespace Tracks

variable {bar : ProgressBar} {total stride done : Int}

theorem start (total : Int) (options : BarOptions) :
    (ProgressBar.start total options).Tracks total (strideOf total options.stride) 0 where
  total_eq := rfl
  stride_eq := rfl
  reported_eq := by simp [ProgressBar.start, reportable]
  sum_advances := rfl
  signals_eq := rfl

/-- Being told of the next step keeps a bar in step with the batch. -/
theorem update (tracks : bar.Tracks total stride done) (positive : 0 < stride)
    (unfinished : done < total) : (bar.update (done + 1)).Tracks total stride (done + 1) := by
  obtain ⟨rfl, rfl, reported_eq, sum_advances, signals_eq⟩ := tracks
  rw [reportable, if_neg (Int.ne_of_lt unfinished)] at reported_eq
  have next_stride := mul_ediv_succ positive done
  rw [← reported_eq] at next_stride
  by_cases reports : bar.ReportsAt (done + 1)
  · have advanced := bar.advances_update_of_reportsAt reports
    refine ⟨?_, ?_, ?_, ?_, ?_⟩
    · rw [bar.update_of_reportsAt reports]
    · rw [bar.update_of_reportsAt reports]
    · rw [bar.update_of_reportsAt reports, reportable]
      rcases reports with full | complete
      · rw [next_stride, if_pos full, ite_self]
      · rw [if_pos (by omega)]
    · rw [advanced, List.sum_append, sum_advances, bar.update_of_reportsAt reports,
        List.sum_singleton]
      change _ = done + 1
      omega
    · rw [advanced, List.map_append, ← signals_eq, bar.update_of_reportsAt reports]
      simp [signals]
  · obtain ⟨short, early⟩ := not_or.mp reports
    rw [bar.update_of_not_reportsAt reports]
    refine ⟨rfl, rfl, ?_, sum_advances, signals_eq⟩
    rw [reportable, if_neg (by omega), next_stride, if_neg short]

/-- A bar that is told of further steps of a batch stays in step with it. -/
theorem follow {done : Nat} (tracks : bar.Tracks total stride done) (positive : 0 < stride)
    (count : Nat) (within : done + count ≤ total) :
    (bar.follow done count).Tracks total stride (done + count : Nat) := by
  induction count generalizing bar done with
  | zero => exact tracks
  | succ count ih =>
      have next := tracks.update positive (by omega)
      rw [show done + (count + 1) = done + 1 + count by omega]
      exact ih (by exact_mod_cast next) (by omega)

end Tracks
end ProgressBar

namespace Machine

variable [RandomSource]

/-- A run with a bar takes the bar away once, as the last thing that it tells the screen, whether it
has made all its steps, a step has halted it or the next step faults.  The reports add up to the
number of the steps if the run has made all of them, and otherwise to the number of those in whole
strides; so they account for every step just when the run is complete or has stopped at the end of
a stride. -/
theorem bar_reports_whole_strides (machine : Machine) (limit : Int) (positive : 0 < limit)
    (options : BarOptions) :
    let batch := machine.run limit (some options)
    let stride := ProgressBar.strideOf limit options.stride
    let steps : Int := batch.steps.length
    ∃ bar, batch.bar = some bar ∧ bar.signals = bar.advances.map .advance ++ [.close] ∧
      bar.advances.sum = (if steps = limit then limit else stride * (steps / stride)) ∧
      (bar.advances.sum = steps ↔ steps = limit ∨ stride ∣ steps) := by
  intro batch stride steps
  have bounded : batch.steps.length ≤ limit.toNat :=
    (machine.concludes_run limit (some options)).bounded
  have tracks : ((ProgressBar.start limit options).follow 0 batch.steps.length).Tracks limit stride
      steps := by
    have start : (ProgressBar.start limit options).Tracks limit stride (0 : Nat) :=
      .start limit options
    have followed := start.follow (ProgressBar.strideOf_pos limit options.stride)
      batch.steps.length (by omega)
    rwa [Nat.zero_add] at followed
  have sum_eq := tracks.sum_advances.trans tracks.reported_eq
  have bar_eq : batch.bar = some ((ProgressBar.start limit options).follow 0
      batch.steps.length).close := by
    rw [show batch.bar = _ from machine.bar_run limit (some options), if_pos positive]
    rfl
  refine ⟨_, bar_eq, ?_, ?_, ?_⟩
  · rw [ProgressBar.signals_close, ProgressBar.advances_close, tracks.signals_eq]
  · rw [ProgressBar.advances_close, sum_eq, ProgressBar.reportable]
    split
    next complete => exact complete
    next => rfl
  · rw [ProgressBar.advances_close, sum_eq, ProgressBar.reportable_eq_iff]

end Machine

/-- A load and a return to nowhere: the second step faults, and the bar has reported the first. -/
theorem Machine.bar_reports_whole_strides_before_a_fault :
    let machine := { Machine.create 0 ⟨true, true⟩ with
      state := { State.initial 0 ⟨true, true⟩ with
        memory := Memory.blank.writeAll 0x200 [0x60, 0x01, 0x00, 0xEE] } }
    let batch := machine.run 10 (some ⟨some 1, none, .none⟩)
    (0 : Int) < 10 ∧ batch.fault = some .stackUnderflow ∧
      ∃ bar, batch.bar = some bar ∧ bar.signals = [.advance 1, .close] := by
  intro machine batch
  have stopped : batch.fault = some .stackUnderflow ∧ batch.steps.length = 1 ∧
      batch.bar.map (·.advances) = some [1] := by
    decide +kernel
  obtain ⟨bar, shown, signals, -⟩ :=
    machine.bar_reports_whole_strides 10 (by decide) ⟨some 1, none, .none⟩
  have advances : bar.advances = [1] := by
    have same := stopped.2.2
    rw [show batch.bar = some bar from shown] at same
    exact Option.some.inj same
  exact ⟨by decide, stopped.1, bar, shown, by rw [signals, advances]; rfl⟩

/-- A load, an addition and a word that is no instruction: a run of at most a hundred steps, to be
reported in strides of five, is over after these three, and none of them is ever reported. -/
theorem Machine.bar_loses_steps_before_a_halt :
    let machine := { Machine.create 0 ⟨true, true⟩ with
      state := { State.initial 0 ⟨true, true⟩ with
        memory := Memory.initial.writeAll 0x200 [0x60, 0x01, 0x70, 0x01, 0x51, 0x21] } }
    let batch := machine.run 100 (some ⟨none, none, .none⟩)
    batch.steps.length = 3 ∧
      ∃ bar, batch.bar = some bar ∧ bar.signals = [.close] ∧ bar.advances.sum ≠ 3 := by
  intro machine batch
  have early : batch.steps.length = 3 ∧
      batch.bar.map (fun bar => (bar.signals, bar.advances.sum)) = some ([.close], 0) := by
    decide +kernel
  obtain ⟨bar, shown, same⟩ := Option.map_eq_some_iff.mp early.2
  obtain ⟨signals, sum⟩ := Prod.mk.inj same
  exact ⟨early.1, bar, shown, signals, by rw [sum]; decide⟩

end Chip8
