import MultiClock.Proofs.BoardTurns

/-! The samples of the audio processor. It emits one after every 768 units that it steps, and as long as there is room in its
buffer none of them is lost. -/

namespace MultiClock
namespace Smp

/-- The sample that one more cycle completes, if there is one. -/
def completed (smp : Smp) : List Int16 :=
  if sampleUnits.toNat ≤ smp.elapsed.toNat + cycleUnits.toNat then [sample smp.mix] else []

/-- What the next slice emits, whether there is room for it or not. -/
def emission (smp : Smp) : List Int16 :=
  match smp.continuation with
  | .execute _ _ _ => smp.completed
  | .idle | .access _ _ _ => []

theorem samples_toList (smp : Smp) : smp.samples.toList = smp.buffer.toList.take smp.sampleCount.toNat := by
  simp [samples, Vector.toList]

theorem length_samples {smp : Smp} (bounded : smp.Bounded) : smp.samples.toList.length = smp.sampleCount.toNat := by
  rw [samples_toList, List.length_take, Vector.length_toList]
  exact Nat.min_eq_left bounded.samples

theorem emit_samples {smp : Smp} (room : smp.sampleCount.toNat < sampleCapacity) :
    smp.emit.samples.toList = smp.samples.toList ++ [sample smp.mix] := by
  have fits : smp.sampleCount.toNat < 2048 := room
  have next : (smp.sampleCount + 1).toNat = smp.sampleCount.toNat + 1 := by
    simp only [UInt16.toNat_add, UInt16.reduceToNat]
    omega
  have inside : smp.sampleCount.toNat < smp.buffer.toList.length := by simpa using fits
  rw [emit, dif_pos fits, samples_toList, samples_toList, next, Vector.toList_set, List.take_add_one,
    List.take_set_of_le (Nat.le_refl _), List.getElem?_set_self inside]
  rfl

theorem emit_elapsed (smp : Smp) : smp.emit.elapsed = smp.elapsed := by
  unfold emit
  split <;> rfl

theorem elapse_samples (smp : Smp) :
    Meets (fun _ => True) (fun later => smp.sampleCount.toNat < sampleCapacity →
      later.samples.toList = smp.samples.toList ++ smp.completed ∧
        smp.elapsed.toNat + cycleUnits.toNat = later.elapsed.toNat + sampleUnits.toNat * smp.completed.length)
      (smp.elapse cycleUnits) := by
  refine ((Checked.add32_meets smp.elapsed cycleUnits).permit fun _ _ => trivial).bind fun elapsed sum => ?_
  by_cases below : elapsed < sampleUnits
  · have less := UInt32.lt_iff_toNat_lt.mp below
    have nothing : smp.completed = [] := if_neg (by omega)
    rw [if_pos below, nothing, List.append_nil]
    exact .pure fun _ => ⟨rfl, sum.symm⟩
  · have full : sampleUnits ≤ elapsed := UInt32.not_lt.mp below
    have most := UInt32.le_iff_toNat_le.mp full
    have one : smp.completed = [sample smp.mix] := if_pos (by omega)
    rw [if_neg below, one]
    apply Meets.pure
    intro room
    refine ⟨emit_samples room, ?_⟩
    rw [emit_elapsed, UInt32.toNat_sub_of_le _ _ full, List.length_singleton]
    omega

theorem perform_samples (smp : Smp) (opcode : Opcode) (operand : UInt8) (bus : Bus) :
    Meets (fun _ => True) (fun result => result.1.samples = smp.samples ∧ result.1.elapsed = smp.elapsed)
      (smp.perform opcode operand bus) := by
  cases opcode with
  | mix => exact (Meets.anything _).bind fun _ _ => .pure ⟨rfl, rfl⟩
  | portRead | portWrite | store => exact .pure ⟨rfl, rfl⟩

/-- A slice adds what it emits to the samples, as long as there is room, and a sample comes after every 768 units. -/
theorem Moves.sounds {cx : Context} {before after : Smp} {bus : Bus} {action : Action} (moves : before.Moves cx after bus action)
    (room : before.sampleCount.toNat < sampleCapacity) :
    after.samples.toList = before.samples.toList ++ before.emission ∧
      action.units + before.elapsed.toNat = after.elapsed.toNat + sampleUnits.toNat * before.emission.length := by
  have silent {later : Smp} (nothing : before.emission = []) (samples : later.samples = before.samples)
      (elapsed : later.elapsed = before.elapsed) : later.samples.toList = before.samples.toList ++ before.emission ∧
        before.elapsed.toNat = later.elapsed.toNat + sampleUnits.toNat * before.emission.length := by
    simp [nothing, samples, elapsed]
  cases moves with
  | stop idle | pass idle =>
    rw [Action.units, Nat.zero_add]
    exact silent (by rw [emission, idle]) rfl rfl
  | step opcode operand cycles executing elapsed =>
    obtain ⟨samples, spent⟩ := (before.elapse_samples.of_ok elapsed) room
    rw [show before.emission = before.completed by rw [emission, executing], Action.units, Nat.add_comm]
    exact ⟨samples, spent⟩
  | ask opcode operand accessing =>
    rw [Action.units, Nat.zero_add]
    exact silent (by rw [emission, accessing]) rfl rfl
  | complete opcode operand synchronized accessing behind performs defers =>
    obtain ⟨samples, elapsed⟩ := (before.perform_samples opcode operand cx.bus).of_ok performs
    rw [show action.units = 0 by cases defers <;> rfl, Nat.zero_add]
    exact silent (by rw [emission, accessing]) samples elapsed

theorem slice_sounds (smp : Smp) (cx : Context) :
    Meets (fun _ => True) (fun result => smp.sampleCount.toNat < sampleCapacity →
      result.1.samples.toList = smp.samples.toList ++ smp.emission ∧
        unitsOf cx.thread result.2.notices + smp.elapsed.toNat =
          unitsOf cx.thread cx.notices + result.1.elapsed.toNat + sampleUnits.toNat * smp.emission.length) (Chip.slice smp cx) := by
  refine ((smp.slice_moves cx).permit fun _ _ => trivial).mono ?_
  rintro result ⟨action, does, moves⟩ room
  obtain ⟨samples, elapsed⟩ := moves.sounds room
  have units := does.units cx.thread
  rw [if_pos rfl] at units
  refine ⟨samples, ?_⟩
  omega

end Smp
end MultiClock
