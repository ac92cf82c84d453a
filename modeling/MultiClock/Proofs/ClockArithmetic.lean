import MultiClock.Clock
import MultiClock.Proofs.Outcome

/-! Clock values as integers. A clock moves by exact products, or the move is a fault, so distances
between domains add up without rounding. -/

namespace MultiClock

/-- An overflow, which does not happen while things are calm. -/
def Overflow (calm : Prop) (fault : Fault) : Prop := fault = .clockOverflow ∧ ¬ calm

namespace Clock

/-- More than the frequency of any chip. -/
def highFrequency : Nat := 0x2000000

/-- A clock of a usual frequency that is so far from its limits that no single step overflows. -/
def Calm (clock : Clock) : Prop := clock.frequency.toNat ≤ highFrequency ∧ clock.value.toInt.natAbs ≤ 0x4000000000000000

theorem scaled_lt {cycles frequency : UInt32} (usual : frequency.toNat ≤ highFrequency) :
    cycles.toNat * frequency.toNat ≤ 0x200000000000000 := by
  calc cycles.toNat * frequency.toNat ≤ 2 ^ 32 * highFrequency := Nat.mul_le_mul (Nat.le_of_lt cycles.toNat_lt) usual
    _ = 0x200000000000000 := by decide

/-- The distance of some cycles is exact, or a clock cannot hold it. -/
theorem scaled_fits (cycles frequency : UInt32) :
    Meets (Overflow (cycles.toNat * frequency.toNat < 0x8000000000000000))
      (fun distance : Int64 => distance.toInt = (cycles.toNat * frequency.toNat : Nat)) (scaled cycles frequency) := by
  have product : (cycles.toUInt64 * frequency.toUInt64).toNat = cycles.toNat * frequency.toNat := by
    have first := cycles.toNat_lt
    have second := frequency.toNat_lt
    have bound : cycles.toNat * frequency.toNat < 2 ^ 64 := by
      calc cycles.toNat * frequency.toNat ≤ (2 ^ 32 - 1) * (2 ^ 32 - 1) := Nat.mul_le_mul (by omega) (by omega)
        _ < 2 ^ 64 := by decide
    simpa only [UInt64.toNat_mul, UInt32.toNat_toUInt64] using Nat.mod_eq_of_lt bound
  simp only [scaled]
  split
  next small =>
    have small := UInt64.lt_iff_toNat_lt.mp small
    rw [product] at small
    simp only [Meets]
    rw [← UInt64.ofNat_toNat (x := cycles.toUInt64 * frequency.toUInt64), UInt64.toInt64_ofNat', product]
    exact Int64.toInt_ofNat_of_lt small
  next large =>
    refine ⟨rfl, fun fits => large (UInt64.lt_iff_toNat_lt.mpr ?_)⟩
    rw [product]
    exact fits

/-- A step forward adds the cycles, scaled by the reference frequency, or one of both operations overflows. -/
theorem advance_fits (clock : Clock) (cycles reference : UInt32) :
    Meets (Overflow (cycles.toNat * reference.toNat < 0x8000000000000000 ∧
        clock.value.toInt + (cycles.toNat * reference.toNat : Nat) < 0x8000000000000000))
      (fun later : Clock => later.frequency = clock.frequency ∧
        later.value.toInt = clock.value.toInt + (cycles.toNat * reference.toNat : Nat))
      (clock.advance cycles reference) := by
  apply Meets.bind ((scaled_fits cycles reference).permit fun _ overflow => ⟨overflow.1, fun fits => overflow.2 fits.1⟩)
  intro distance exact
  have low := clock.value.le_toInt
  have high := clock.value.toInt_lt
  have above := distance.toInt_lt
  simp only
  split
  next wraps =>
    refine ⟨rfl, ?_⟩
    intro fits
    have room := fits.2
    have wraps := Int64.lt_iff_toInt_lt.mp wraps
    rw [Int64.toInt_add, exact] at wraps
    simp only [Int.bmod_def] at wraps
    omega
  next fits =>
    refine ⟨rfl, ?_⟩
    have fits := mt Int64.lt_iff_toInt_lt.mpr fits
    rw [Int64.toInt_add] at fits ⊢
    rw [← exact]
    simp only [Int.bmod_def] at fits ⊢
    omega

theorem advance_meets (clock : Clock) (cycles reference : UInt32) :
    Meets (Overflow (reference.toNat ≤ highFrequency ∧ clock.Calm)) (fun later : Clock => later.frequency = clock.frequency ∧
        later.value.toInt = clock.value.toInt + (cycles.toNat * reference.toNat : Nat))
      (clock.advance cycles reference) := by
  apply (advance_fits clock cycles reference).permit
  intro fault overflow
  refine ⟨overflow.1, fun calm => overflow.2 ?_⟩
  have moved : cycles.toNat * reference.toNat ≤ 0x200000000000000 := scaled_lt calm.1
  have near := calm.2.2
  exact ⟨by omega, by omega⟩

/-- A step of the reference subtracts its cycles, scaled by the clock's own frequency, or one of both
operations overflows. -/
theorem rewind_fits (clock : Clock) (cycles : UInt32) :
    Meets (Overflow (cycles.toNat * clock.frequency.toNat < 0x8000000000000000 ∧
        -0x8000000000000000 ≤ clock.value.toInt - (cycles.toNat * clock.frequency.toNat : Nat)))
      (fun later : Clock => later.frequency = clock.frequency ∧
        later.value.toInt = clock.value.toInt - (cycles.toNat * clock.frequency.toNat : Nat))
      (clock.rewind cycles) := by
  apply Meets.bind ((scaled_fits cycles clock.frequency).permit fun _ overflow =>
    ⟨overflow.1, fun fits => overflow.2 fits.1⟩)
  intro distance exact
  have low := clock.value.le_toInt
  have high := clock.value.toInt_lt
  have above := distance.toInt_lt
  simp only
  split
  next wraps =>
    refine ⟨rfl, ?_⟩
    intro fits
    have room := fits.2
    have wraps := Int64.lt_iff_toInt_lt.mp wraps
    rw [Int64.toInt_sub, exact] at wraps
    simp only [Int.bmod_def] at wraps
    omega
  next fits =>
    refine ⟨rfl, ?_⟩
    have fits := mt Int64.lt_iff_toInt_lt.mpr fits
    rw [Int64.toInt_sub] at fits ⊢
    rw [← exact]
    simp only [Int.bmod_def] at fits ⊢
    omega

theorem rewind_meets (clock : Clock) (cycles : UInt32) :
    Meets (Overflow clock.Calm) (fun later : Clock => later.frequency = clock.frequency ∧
        later.value.toInt = clock.value.toInt - (cycles.toNat * clock.frequency.toNat : Nat))
      (clock.rewind cycles) := by
  apply (rewind_fits clock cycles).permit
  intro fault overflow
  refine ⟨overflow.1, fun calm => overflow.2 ?_⟩
  have moved : cycles.toNat * clock.frequency.toNat ≤ 0x200000000000000 := scaled_lt calm.1
  have near := calm.2
  exact ⟨by omega, by omega⟩

theorem ahead_iff (clock : Clock) : clock.ahead = true ↔ 0 ≤ clock.value.toInt := by
  simp [ahead, Int64.le_iff_toInt_le]

theorem aheadBy_fits (clock : Clock) (cycles reference : UInt32) :
    Meets (Overflow (cycles.toNat * reference.toNat < 0x8000000000000000))
      (fun beyond : Bool => beyond = true ↔ (cycles.toNat * reference.toNat : Nat) < clock.value.toInt)
      (clock.aheadBy cycles reference) := by
  apply Meets.bind (scaled_fits cycles reference)
  intro distance exact
  rw [← exact]
  exact decide_eq_true_iff.trans Int64.lt_iff_toInt_lt

theorem aheadBy_meets (clock : Clock) (cycles reference : UInt32) :
    Meets (Overflow (reference.toNat ≤ highFrequency))
      (fun beyond : Bool => beyond = true ↔ (cycles.toNat * reference.toNat : Nat) < clock.value.toInt)
      (clock.aheadBy cycles reference) :=
  (aheadBy_fits clock cycles reference).permit fun _ overflow =>
    ⟨overflow.1, fun usual => overflow.2 (Nat.lt_of_le_of_lt (scaled_lt usual) (by decide))⟩

end Clock
end MultiClock
