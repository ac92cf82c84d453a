import MultiClock.Proofs.DriveRules
import MultiClock.Proofs.TurnRules

/-! Chips that are built around others do what those do. Every loop over them yields what it yields for the chips inside,
together with whatever else they hold. -/

namespace MultiClock

variable [ChipSet σ] [ChipSet τ] [Host ω] {view : σ → τ}

namespace Scheduler

theorem runSlices_wraps (wraps : ChipSet.Wraps view) (budget : Nat) (scheduler : Scheduler) (chips : σ) :
    (scheduler.runSlices budget (view chips) : Run ω (Scheduler × τ)) =
      (fun result => (result.1, view result.2)) <$> scheduler.runSlices budget chips := by
  induction budget generalizing scheduler chips with
  | zero => rfl
  | succ budget ih =>
    rw [runSlices, runSlices, wraps]
    cases ChipSet.slice scheduler.active chips scheduler with
    | error fault => rfl
    | ok result =>
      obtain ⟨moved, later, notices⟩ := result
      simp only [Except.map, Run.ofExcept_ok, pure_bind, map_bind]
      refine bind_congr fun _ => ?_
      cases later.transfer with
      | none => exact ih later moved
      | some transfer =>
        cases transfer with
        | resume target =>
          simp only [map_bind]
          exact bind_congr fun _ => ih _ moved
        | leave event => simp only [map_bind, map_pure]

theorem enter_wraps (wraps : ChipSet.Wraps view) (budget : Nat) (scheduler : Scheduler) (chips : σ) :
    (scheduler.enter budget (view chips) : Run ω (Scheduler × τ)) =
      (fun result => (result.1, view result.2)) <$> scheduler.enter budget chips := by
  rw [enter, enter]
  by_cases inside : scheduler.entered = true
  · rw [if_pos inside, if_pos inside]
    rfl
  · rw [if_neg inside, if_neg inside]
    by_cases missing : (scheduler.thread? scheduler.active).isNone = true
    · rw [if_pos missing, if_pos missing]
      rfl
    · rw [if_neg missing, if_neg missing]
      exact runSlices_wraps wraps budget _ chips

end Scheduler

namespace Save

/-- The same save, seen from the chips inside. -/
def Drive.map (view : σ → τ) (driving : Drive σ) : Drive τ := ⟨driving.scheduler, view driving.chips, driving.report⟩

omit [ChipSet σ] [ChipSet τ] in
theorem handBack_map (view : σ → τ) (method : SaveMethod) (driving : Drive σ) :
    (handBack method (driving.map view) : Run ω (Drive τ)) = Drive.map view <$> handBack method driving := by
  obtain ⟨scheduler, chips, report⟩ := driving
  rw [handBack, Drive.map, handBack]
  by_cases quiescent : scheduler.quiescent = true
  · simp only [quiescent, Bool.not_true, Bool.false_eq_true, if_false, map_bind]
    exact bind_congr fun _ => bind_congr fun _ => bind_congr fun _ => rfl
  · simp only [Bool.not_eq_true] at quiescent
    simp only [quiescent, Bool.not_false, if_true]
    rfl

omit [ChipSet σ] [ChipSet τ] [Host ω] in
theorem countPass_map (view : σ → τ) (driving : Drive σ) :
    (countPass (driving.map view) : Run ω (Drive τ)) = Drive.map view <$> countPass driving := by
  obtain ⟨scheduler, chips, report⟩ := driving
  rw [countPass, Drive.map, countPass, map_bind]
  exact bind_congr fun _ => rfl

variable {onFrame : σ → StateM ω σ} {onSeen : τ → StateM ω τ}

section
variable (wraps : ChipSet.Wraps view) (frames : ∀ chips, onSeen (view chips) = view <$> onFrame chips) (budget : Nat)
include wraps frames

theorem enterUntilPoint_wraps (thread : ThreadId) (rounds : Nat) (driving : Drive σ) :
    enterUntilPoint onSeen budget thread rounds (driving.map view) =
      (fun result => (result.1, result.2.map view)) <$> enterUntilPoint onFrame budget thread rounds driving := by
  induction rounds generalizing driving with
  | zero => rfl
  | succ rounds ih =>
    obtain ⟨scheduler, chips, report⟩ := driving
    rw [enterUntilPoint, Drive.map, enterUntilPoint, Scheduler.enter_wraps wraps, bind_map_left, map_bind]
    refine bind_congr fun result => ?_
    obtain ⟨later, moved⟩ := result
    by_cases frame : later.event = .frame
    · simp only [if_pos frame, map_bind]
      refine bind_congr fun count => ?_
      rw [frames]
      simp only [liftM_map, bind_map_left]
      exact bind_congr fun last => ih ⟨later, last, _⟩
    · simp only [if_neg frame]
      split
      · rfl
      · simp only [map_bind]
        exact bind_congr fun _ => rfl

theorem drive_wraps (thread : ThreadId) (driving : Drive σ) :
    drive onSeen budget thread (driving.map view) =
      (fun result => (result.1, result.2.map view)) <$> drive onFrame budget thread driving := by
  obtain ⟨scheduler, chips, report⟩ := driving
  rw [drive, Drive.map, drive, map_bind]
  exact bind_congr fun scheduler => enterUntilPoint_wraps wraps frames budget thread budget ⟨scheduler, chips, report⟩

theorem pass_wraps (order : List ThreadId) (driving : Drive σ) :
    pass onSeen budget order (driving.map view) =
      (fun result => (result.1, result.2.map view)) <$> pass onFrame budget order driving := by
  induction order generalizing driving with
  | nil => rfl
  | cons thread rest ih =>
    rw [pass, pass, drive_wraps wraps frames, bind_map_left, map_bind]
    refine bind_congr fun result => ?_
    obtain ⟨undisturbed, later⟩ := result
    cases undisturbed with
    | true => exact ih later
    | false => rfl

theorem strict_wraps (order : List ThreadId) (rounds : Nat) (driving : Drive σ) :
    strict onSeen budget order rounds (driving.map view) = Drive.map view <$> strict onFrame budget order rounds driving := by
  induction rounds generalizing driving with
  | zero => rfl
  | succ rounds ih =>
    rw [strict, strict, countPass_map, bind_map_left, map_bind]
    refine bind_congr fun counted => ?_
    rw [pass_wraps wraps frames, bind_map_left, map_bind]
    refine bind_congr fun result => ?_
    obtain ⟨disturbed, later⟩ := result
    cases disturbed with
    | none => rfl
    | some thread =>
      simp only [map_bind]
      exact bind_congr fun _ => ih later

theorem driveUndisturbed_wraps (thread : ThreadId) (rounds : Nat) (driving : Drive σ) :
    driveUndisturbed onSeen budget thread rounds (driving.map view) =
      Drive.map view <$> driveUndisturbed onFrame budget thread rounds driving := by
  induction rounds generalizing driving with
  | zero => rfl
  | succ rounds ih =>
    rw [driveUndisturbed, driveUndisturbed, drive_wraps wraps frames, bind_map_left, map_bind]
    refine bind_congr fun result => ?_
    obtain ⟨undisturbed, later⟩ := result
    cases undisturbed with
    | true => rfl
    | false => exact ih later

theorem settle_wraps (thread : ThreadId) (rounds : Nat) (driving : Drive σ) :
    settle onSeen budget thread rounds (driving.map view) =
      Drive.map view <$> settle onFrame budget thread rounds driving := by
  induction rounds generalizing driving with
  | zero => rfl
  | succ rounds ih =>
    rw [settle, settle, map_bind]
    refine bind_congr fun settled => ?_
    cases settled with
    | true => rfl
    | false =>
      simp only [Bool.false_eq_true, if_false]
      rw [drive_wraps wraps frames, bind_map_left, map_bind]
      exact bind_congr fun result => ih result.2

theorem settleEach_wraps (threads : List ThreadId) (driving : Drive σ) :
    settleEach onSeen budget threads (driving.map view) = Drive.map view <$> settleEach onFrame budget threads driving := by
  induction threads generalizing driving with
  | nil => rfl
  | cons thread rest ih =>
    rw [settleEach, settleEach, settle_wraps wraps frames, bind_map_left, map_bind]
    exact bind_congr ih

theorem driveEach_wraps (threads : List ThreadId) (driving : Drive σ) :
    driveEach onSeen budget threads (driving.map view) = Drive.map view <$> driveEach onFrame budget threads driving := by
  induction threads generalizing driving with
  | nil => rfl
  | cons thread rest ih =>
    rw [driveEach, driveEach, drive_wraps wraps frames, bind_map_left, map_bind]
    exact bind_congr fun result => ih result.2

theorem settleRest_wraps (rounds : Nat) (driving : Drive σ) :
    settleRest onSeen budget rounds (driving.map view) = Drive.map view <$> settleRest onFrame budget rounds driving := by
  induction rounds generalizing driving with
  | zero => rfl
  | succ rounds ih =>
    rw [settleRest, settleRest]
    by_cases quiescent : driving.scheduler.quiescent = true
    · rw [if_pos quiescent, if_pos (by exact quiescent)]
      rfl
    · rw [if_neg quiescent, if_neg (by exact quiescent), countPass_map, bind_map_left, map_bind]
      refine bind_congr fun counted => ?_
      simp only [map_bind]
      refine bind_congr fun _ => ?_
      rw [show (counted.map view).scheduler = counted.scheduler from rfl, driveEach_wraps wraps frames, bind_map_left]
      exact bind_congr ih

theorem fast_wraps (driving : Drive σ) :
    fast onSeen budget (driving.map view) = Drive.map view <$> fast onFrame budget driving := by
  rw [fast, fast, countPass_map, bind_map_left, map_bind]
  refine bind_congr fun counted => ?_
  rw [driveUndisturbed_wraps wraps frames, bind_map_left, map_bind]
  refine bind_congr fun driven => ?_
  simp only [show (driven.map view).scheduler = driven.scheduler from rfl, settleEach_wraps wraps frames, bind_map_left, map_bind]
  exact bind_congr fun settled => settleRest_wraps wraps frames budget budget settled

theorem settleAll_wraps (method : SaveMethod) (driving : Drive σ) :
    settleAll onSeen budget method (driving.map view) = Drive.map view <$> settleAll onFrame budget method driving := by
  cases method with
  | fast => exact fast_wraps wraps frames budget driving
  | strict => exact strict_wraps wraps frames budget _ budget driving

theorem runToSave_wraps (method : SaveMethod) (scheduler : Scheduler) (chips : σ) :
    runToSave onSeen budget method scheduler (view chips) =
      Drive.map view <$> runToSave onFrame budget method scheduler chips := by
  by_cases inside : scheduler.entered = true
  · rw [runToSave, runToSave, Scheduler.setMode, if_pos (by exact inside)]
    rfl
  · have outside := Bool.eq_false_iff.mpr inside
    rw [runToSave_eq outside, runToSave_eq outside, map_bind]
    rw [show (⟨steered scheduler, view chips, SaveReport.zero⟩ : Drive τ) =
      (⟨steered scheduler, chips, SaveReport.zero⟩ : Drive σ).map view from rfl, settleAll_wraps wraps frames, bind_map_left]
    exact bind_congr fun settled => handBack_map view method settled

end
end Save
end MultiClock
