import Mathlib.Algebra.GroupWithZero.Nat
import Mathlib.Data.List.Induction
import Chip8.Statistics

/-!
# Tallies

A tally of values counts each of them as often as it occurs.  It lists them in the order in which
they first occurred; ranked, they stand by falling count, and equal counts keep that order, since
sorting is stable.
-/

namespace Chip8
namespace Tally

variable {Value : Type} [DecidableEq Value]

/-- The tally of values that have occurred in order. -/
def of (values : List Value) : Tally Value :=
  values.foldl add empty

theorem of_concat (values : List Value) (value : Value) :
    of (values ++ [value]) = (of values).add value := by
  rw [of, List.foldl_append]
  rfl

/-- An item that shows no value is not counted. -/
theorem of_filterMap_concat {Item : Type} (view : Item → Option Value) (items : List Item)
    (last : Item) :
    of ((items ++ [last]).filterMap view) =
      (view last).elim (of (items.filterMap view)) (of (items.filterMap view)).add := by
  rw [List.filterMap_append]
  cases shows : view last with
  | none =>
      rw [List.filterMap_cons_none shows, List.filterMap_nil, List.append_nil]
      rfl
  | some value =>
      rw [List.filterMap_cons_some shows, List.filterMap_nil, of_concat]
      rfl

/-! ## First occurrences -/

theorem eraseDups_concat (values : List Value) (value : Value) :
    (values ++ [value]).eraseDups =
      if value ∈ values then values.eraseDups else values.eraseDups ++ [value] := by
  rw [List.eraseDups_append]
  by_cases old : value ∈ values
  · simp [List.removeAll, old]
  · simp [List.removeAll, old, List.eraseDups_cons]

section FirstOccurrences

variable {Item : Type} (view : Item → Option Value)

theorem findIdx_lt_of_mem {items : List Item} {value : Value}
    (member : value ∈ items.filterMap view) :
    items.findIdx (fun item => view item == some value) < items.length := by
  obtain ⟨item, among, shows⟩ := List.mem_filterMap.mp member
  exact List.findIdx_lt_length.mpr ⟨item, among, beq_iff_eq.mpr shows⟩

theorem findIdx_eq_of_not_mem {items : List Item} {value : Value}
    (absent : value ∉ items.filterMap view) :
    items.findIdx (fun item => view item == some value) = items.length := by
  refine List.findIdx_eq_length.mpr fun item among => beq_eq_false_iff_ne.mpr fun shows => ?_
  exact absent (List.mem_filterMap.mpr ⟨item, among, shows⟩)

/-- An item at the end does not move the place where a value first occurred. -/
theorem findIdx_concat_of_mem {items : List Item} {value : Value} (last : Item)
    (member : value ∈ items.filterMap view) :
    (items ++ [last]).findIdx (fun item => view item == some value) =
      items.findIdx fun item => view item == some value := by
  rw [List.findIdx_append, if_pos (findIdx_lt_of_mem view member)]

/-- Distinct values stand in the order of the first items that show them. -/
theorem pairwise_eraseDups (items : List Item) :
    (items.filterMap view).eraseDups.Pairwise fun left right =>
      items.findIdx (fun item => view item == some left) <
        items.findIdx (fun item => view item == some right) := by
  induction items using List.reverseRecOn with
  | nil => exact List.Pairwise.nil
  | append_singleton items last ih =>
      have older : (items.filterMap view).eraseDups.Pairwise fun left right =>
          (items ++ [last]).findIdx (fun item => view item == some left) <
            (items ++ [last]).findIdx fun item => view item == some right := by
        refine ih.imp_of_mem fun {left right} left_member right_member before => ?_
        rw [findIdx_concat_of_mem view last (List.mem_eraseDups.mp left_member),
          findIdx_concat_of_mem view last (List.mem_eraseDups.mp right_member)]
        exact before
      rw [List.filterMap_append]
      cases shows : view last with
      | none =>
          rw [List.filterMap_cons_none shows, List.filterMap_nil, List.append_nil]
          exact older
      | some value =>
          rw [List.filterMap_cons_some shows, List.filterMap_nil, eraseDups_concat]
          split
          · exact older
          · rename_i new
            refine List.pairwise_append.mpr ⟨older, List.pairwise_singleton _ _, ?_⟩
            -- The new value first occurs at the end, behind all the others.
            intro left member right added
            obtain rfl := List.mem_singleton.mp added
            have old := List.mem_eraseDups.mp member
            rw [findIdx_concat_of_mem view last old, List.findIdx_append,
              findIdx_eq_of_not_mem view new, if_neg (Nat.lt_irrefl _)]
            exact Nat.lt_add_left _ (findIdx_lt_of_mem view old)

end FirstOccurrences

theorem nodup_eraseDups (values : List Value) : values.eraseDups.Nodup := by
  have ordered := pairwise_eraseDups some values
  rw [List.filterMap_some] at ordered
  refine ordered.imp fun before same => ?_
  rw [same] at before
  exact Nat.lt_irrefl _ before

/-! ## Counts -/

/-- One more occurrence raises the count of a value that is listed, and lists a new one. -/
theorem increment_map (value : Value) (count : Value → Nat) {values : List Value}
    (nodup : values.Nodup) :
    increment value (values.map fun other => (other, count other)) =
      if value ∈ values then
        values.map fun other => (other, if other = value then count other + 1 else count other)
      else
        values.map (fun other => (other, count other)) ++ [(value, 1)] := by
  induction values with
  | nil => rfl
  | cons head values ih =>
      obtain ⟨fresh, nodup⟩ := List.nodup_cons.mp nodup
      rw [List.map_cons, increment]
      by_cases same : head = value
      · subst same
        have others : ∀ other ∈ values, other ≠ head := fun other member equal =>
          fresh (equal ▸ member)
        have unchanged : values.map (fun other =>
            (other, if other = head then count other + 1 else count other)) =
              values.map fun other => (other, count other) := by
          refine List.map_congr_left fun other member => ?_
          rw [if_neg (others other member)]
        rw [if_pos rfl, if_pos List.mem_cons_self, List.map_cons, if_pos rfl, unchanged]
      · have listed : value ∈ head :: values ↔ value ∈ values := by
          simp [Ne.symm same]
        rw [if_neg same, ih nodup]
        simp only [listed, List.map_cons, if_neg same]
        split <;> rfl

/-- A tally lists each value once, by first occurrence, with the number of its occurrences. -/
theorem counts_of (values : List Value) :
    (of values).counts = values.eraseDups.map fun value => (value, values.count value) := by
  induction values using List.reverseRecOn with
  | nil => rfl
  | append_singleton values last ih =>
      rw [of_concat, add, ih, increment_map last _ (nodup_eraseDups values), eraseDups_concat]
      simp only [List.mem_eraseDups, List.count_append, List.count_singleton]
      split
      · refine List.map_congr_left fun value _ => ?_
        by_cases same : value = last
        · simp [same]
        · simp [same, Ne.symm same]
      · rename_i new
        have older : values.eraseDups.map (fun value => (value, values.count value)) =
            values.eraseDups.map fun value =>
              (value, values.count value + if last == value then 1 else 0) := by
          refine List.map_congr_left fun value member => ?_
          have other : last ≠ value := by
            rintro rfl
            exact new (List.mem_eraseDups.mp member)
          simp [other]
        rw [older]
        simp [List.count_eq_zero.mpr new]

theorem mem_counts_of {values : List Value} {value : Value} {count : Nat} :
    (value, count) ∈ (of values).counts ↔ 0 < count ∧ count = values.count value := by
  rw [counts_of, List.mem_map]
  constructor
  · rintro ⟨other, member, same⟩
    cases same
    exact ⟨List.count_pos_iff.mpr (List.mem_eraseDups.mp member), rfl⟩
  · rintro ⟨positive, rfl⟩
    exact ⟨value, List.mem_eraseDups.mpr (List.count_pos_iff.mp positive), rfl⟩

section Views

variable {Item : Type} (view : Item → Option Value) (items : List Item)

theorem mem_counts_of_filterMap {value : Value} {count : Nat} :
    (value, count) ∈ (of (items.filterMap view)).counts ↔
      0 < count ∧ count = items.countP fun item => view item == some value := by
  have shown (item : Item) :
      ((view item).map (· == value)).getD false = (view item == some value) := by
    cases view item <;> rfl
  rw [mem_counts_of, List.count, List.countP_filterMap]
  simp only [shown]

theorem pairwise_counts_of_filterMap :
    (of (items.filterMap view)).counts.Pairwise fun left right =>
      items.findIdx (fun item => view item == some left.1) <
        items.findIdx (fun item => view item == some right.1) := by
  rw [counts_of, List.pairwise_map]
  exact pairwise_eraseDups view items

end Views

theorem sum_increment (value : Value) (counts : List (Value × Nat)) :
    ((increment value counts).map Prod.snd).sum = (counts.map Prod.snd).sum + 1 := by
  induction counts with
  | nil => rfl
  | cons head counts ih =>
      rw [increment]
      split
      · simp only [List.map_cons, List.sum_cons]
        omega
      · simp only [List.map_cons, List.sum_cons, ih]
        omega

theorem sum_counts_of (values : List Value) :
    ((of values).counts.map Prod.snd).sum = values.length := by
  induction values using List.reverseRecOn with
  | nil => rfl
  | append_singleton values last ih =>
      rw [of_concat, add, sum_increment, ih, List.length_append]
      rfl

/-! ## Ranks -/

section Ranks

omit [DecidableEq Value]

variable (tally : Tally Value)

theorem ranks_trans (first second third : Value × Nat) :
    decide (second.2 ≤ first.2) = true → decide (third.2 ≤ second.2) = true →
      decide (third.2 ≤ first.2) = true := by
  simp only [decide_eq_true_eq]
  omega

theorem ranks_total (first second : Value × Nat) :
    (decide (second.2 ≤ first.2) || decide (first.2 ≤ second.2)) = true := by
  simp only [Bool.or_eq_true, decide_eq_true_eq]
  omega

theorem ranked_perm : tally.ranked.Perm tally.counts :=
  List.mergeSort_perm _ _

/-- Equal counts stay in the order in which they are listed. -/
theorem filter_ranked (count : Nat) :
    tally.ranked.filter (fun entry => entry.2 == count) =
      tally.counts.filter fun entry => entry.2 == count := by
  have level : (tally.counts.filter fun entry => entry.2 == count).Pairwise fun left right =>
      decide (right.2 ≤ left.2) = true := by
    refine List.pairwise_of_forall_mem_list fun left left_member right right_member => ?_
    have left_count := (List.mem_filter.mp left_member).2
    have right_count := (List.mem_filter.mp right_member).2
    simp only [beq_iff_eq] at left_count right_count
    simp [left_count, right_count]
  have sorted : List.Sublist (tally.counts.filter fun entry => entry.2 == count) tally.ranked :=
    List.sublist_mergeSort ranks_trans ranks_total level List.filter_sublist
  have within := sorted.filter fun entry => entry.2 == count
  simp only [List.filter_filter, Bool.and_self] at within
  exact (within.eq_of_length (tally.ranked_perm.filter _).length_eq.symm).symm

/-- Ranked entries stand by falling count and, where counts are equal, as they were listed. -/
theorem pairwise_ranked {before : Value × Nat → Value × Nat → Prop}
    (listed : tally.counts.Pairwise before) :
    tally.ranked.Pairwise fun left right =>
      right.2 < left.2 ∨ right.2 = left.2 ∧ before left right := by
  have falling : tally.ranked.Pairwise fun left right => decide (right.2 ≤ left.2) = true :=
    List.pairwise_mergeSort ranks_trans ranks_total tally.counts
  refine List.pairwise_iff_forall_sublist.mpr fun {left right} pair => ?_
  have le := List.pairwise_iff_forall_sublist.mp falling pair
  rcases Nat.lt_or_eq_of_le (of_decide_eq_true le) with below | tied
  · exact .inl below
  · have tie := pair.filter fun entry => entry.2 == left.2
    simp only [List.filter_cons, tied, beq_self_eq_true, if_true, List.filter_nil,
      filter_ranked] at tie
    have both := List.pairwise_iff_forall_sublist.mp listed (tie.trans List.filter_sublist)
    exact .inr ⟨tied, both⟩

theorem sum_ranked : (tally.ranked.map Prod.snd).sum = (tally.counts.map Prod.snd).sum :=
  (tally.ranked_perm.map Prod.snd).sum_nat

end Ranks

end Tally
end Chip8
