import Mathlib.Data.List.DropRight
import MultiClock.Recent

/-! What is recalled of items that were pushed one after the other: the last of them, as many as there are places. It cannot be seen
when the older ones are dropped. -/

namespace MultiClock

theorem rtake_rtake_append (capacity : Nat) (items more : List α) :
    (items.rtake capacity ++ more).rtake capacity = (items ++ more).rtake capacity := by
  have newest : List.take capacity (more.reverse ++ items.reverse.take capacity) = List.take capacity (more.reverse ++ items.reverse) := by
    rw [List.take_append, List.take_append, List.take_take, Nat.min_eq_left (Nat.sub_le _ _)]
  simp only [List.rtake_eq_reverse_take_reverse, List.reverse_append, List.reverse_reverse, newest]

theorem length_rtake (capacity : Nat) (items : List α) : (items.rtake capacity).length = min items.length capacity := by
  rw [List.rtake, List.length_drop]
  omega

namespace Recent

/-- The last ones of these items are recalled. -/
def Recalls (recent : Recent α capacity) (items : List α) : Prop := recent.oldestFirst.toList = items.rtake capacity

variable {recent : Recent α capacity} {items : List α}

theorem recalls_kept (recent : Recent α capacity) : recent.Recalls recent.kept.toList := by
  have all_left : (recent.kept.toList.drop (recent.kept.size - capacity)).length ≤ recent.kept.size - (recent.kept.size - capacity) := by
    simp
  rw [Recalls, oldestFirst, Array.toList_extract, List.extract_eq_take_drop, List.rtake]
  exact List.take_of_length_le all_left

theorem recalls_empty : (empty : Recent α capacity).Recalls [] := recalls_kept _

theorem Recalls.push (recalls : recent.Recalls items) (item : α) : (recent.push item).Recalls (items ++ [item]) := by
  have same : recent.kept.toList.rtake capacity = items.rtake capacity := (recalls_kept recent).symm.trans recalls
  unfold Recent.push
  split
  · apply (recalls_kept _).trans
    rw [Array.toList_push, ← rtake_rtake_append, same, rtake_rtake_append]
  · -- the places are used up, so the items that fell out go
    apply (recalls_kept _).trans
    rw [Array.toList_push, recalls, rtake_rtake_append]

theorem Recalls.isFull_iff (recalls : recent.Recalls items) : recent.isFull ↔ capacity ≤ items.length := by
  have counted := congrArg List.length ((recalls_kept recent).symm.trans recalls)
  rw [length_rtake, length_rtake, Array.length_toList] at counted
  rw [isFull, beq_iff_eq, length, counted]
  omega

end Recent
end MultiClock
