import MultiClock.Proofs.Outcome
import MultiClock.Word

/-! Checked sums as natural numbers. A checked sum is the exact sum, and it is a fault only if the
word cannot hold the exact sum. -/

namespace MultiClock

/-- A count that is not at its last step goes down by one. -/
theorem counted_down {count : UInt8} (several : 1 < count) : 1 < count.toNat ∧ (count - 1).toNat = count.toNat - 1 :=
  ⟨UInt8.lt_iff_toNat_lt.mp several, UInt8.toNat_sub_of_le _ _ (UInt8.le_of_lt several)⟩

namespace Checked

theorem add8_meets (first second : UInt8) :
    Meets (fun fault => fault = .counterOverflow ∧ 2 ^ 8 ≤ first.toNat + second.toNat)
      (fun sum : UInt8 => sum.toNat = first.toNat + second.toNat) (add8 first second) := by
  have low := first.toNat_lt
  have high := second.toNat_lt
  unfold add8
  split
  next wrapped =>
    rw [UInt8.lt_iff_toNat_lt, UInt8.toNat_add] at wrapped
    exact ⟨rfl, by omega⟩
  next fits =>
    rw [UInt8.lt_iff_toNat_lt, UInt8.toNat_add] at fits
    simp only [Meets, UInt8.toNat_add]
    omega

theorem add16_meets (first second : UInt16) :
    Meets (fun fault => fault = .counterOverflow ∧ 2 ^ 16 ≤ first.toNat + second.toNat)
      (fun sum : UInt16 => sum.toNat = first.toNat + second.toNat) (add16 first second) := by
  have low := first.toNat_lt
  have high := second.toNat_lt
  unfold add16
  split
  next wrapped =>
    rw [UInt16.lt_iff_toNat_lt, UInt16.toNat_add] at wrapped
    exact ⟨rfl, by omega⟩
  next fits =>
    rw [UInt16.lt_iff_toNat_lt, UInt16.toNat_add] at fits
    simp only [Meets, UInt16.toNat_add]
    omega

theorem add32_meets (first second : UInt32) :
    Meets (fun fault => fault = .counterOverflow ∧ 2 ^ 32 ≤ first.toNat + second.toNat)
      (fun sum : UInt32 => sum.toNat = first.toNat + second.toNat) (add32 first second) := by
  have low := first.toNat_lt
  have high := second.toNat_lt
  unfold add32
  split
  next wrapped =>
    rw [UInt32.lt_iff_toNat_lt, UInt32.toNat_add] at wrapped
    exact ⟨rfl, by omega⟩
  next fits =>
    rw [UInt32.lt_iff_toNat_lt, UInt32.toNat_add] at fits
    simp only [Meets, UInt32.toNat_add]
    omega

end Checked
end MultiClock
