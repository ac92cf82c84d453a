import MultiClock.Proofs.CheckedWords
import MultiClock.Proofs.DriveTrail

/-! Rules for the loops of the driver. What every single drive keeps, the whole save keeps. -/

namespace MultiClock.Save

/-- A count goes up by one, or the driver breaks off. -/
theorem count_meets {permitted : Fault → Prop} (allowed : permitted .counterOverflow) (count : UInt32) (host : ω) :
    (Run.ofExcept (Checked.add32 count 1)).Meets permitted
      (fun next later => next.toNat = count.toNat + 1 ∧ host = later) host := by
  apply Run.Meets.ofExcept
  apply ((Checked.add32_meets count 1).mono fun _ next => ⟨next, rfl⟩).permit
  rintro _ ⟨rfl, _⟩
  exact allowed

theorem count_fits {permitted : Fault → Prop} (count : UInt32) (room : count.toNat + 1 < 2 ^ 32) (host : ω) :
    (Run.ofExcept (Checked.add32 count 1)).Meets permitted
      (fun next later => next.toNat = count.toNat + 1 ∧ host = later) host := by
  apply Run.Meets.ofExcept
  apply ((Checked.add32_meets count 1).mono fun _ next => ⟨next, rfl⟩).permit
  rintro _ ⟨rfl, beyond⟩
  simp only [UInt32.reduceToNat] at beyond
  omega

variable [ChipSet σ] [Host ω] {onFrame : σ → StateM ω σ} {budget : Nat}

/-- A scheduler in which chips are steered to their points. -/
def steered (scheduler : Scheduler) : Scheduler := { scheduler with desynchronized := false, mode := .synchronize }

/-- The part of a save that drives chips. -/
def settleAll (onFrame : σ → StateM ω σ) (budget : Nat) (method : SaveMethod) (driving : Drive σ) : Run ω (Drive σ) :=
  match method with
  | .fast => fast onFrame budget driving
  | .strict => strict onFrame budget (strictOrder driving.scheduler) budget driving

/-- The part of a save that hands the machine back. -/
def handBack (method : SaveMethod) (driving : Drive σ) : Run ω (Drive σ) := do
  let ⟨scheduler, chips, report⟩ := driving
  if !scheduler.quiescent then throw .notQuiescent
  let scheduler ← Run.ofExcept (scheduler.setMode .run)
  let scheduler ← Run.ofExcept (scheduler.setActive .cpu)
  Run.report (.driven method report)
  return ⟨scheduler.clearDesynchronized, chips, report⟩

theorem runToSave_eq {method : SaveMethod} {scheduler : Scheduler} {chips : σ} (outside : scheduler.entered = false) :
    runToSave onFrame budget method scheduler chips =
      settleAll onFrame budget method ⟨steered scheduler, chips, SaveReport.zero⟩ >>= handBack method := by
  rw [runToSave, Scheduler.setMode, if_neg (by simpa [Scheduler.clearDesynchronized] using outside)]
  cases method <;> rfl

theorem settle_succ {thread : ThreadId} {rounds : Nat} {driving : Drive σ} {found : Thread}
    (present : driving.scheduler.thread? thread = some found) :
    settle onFrame budget thread (rounds + 1) driving =
      if found.settled then pure driving
      else (do
        let (_, driving) ← drive onFrame budget thread driving
        settle onFrame budget thread rounds driving) := by
  rw [settle, Scheduler.thread, present]
  rfl

theorem settle_missing {thread : ThreadId} {rounds : Nat} {driving : Drive σ}
    (absent : driving.scheduler.thread? thread = none) :
    settle onFrame budget thread (rounds + 1) driving = throw (.missingThread thread) := by
  rw [settle, Scheduler.thread, absent]
  rfl

/-- A property of a save in progress that no drive breaks. It may concern the report, but not how many
passes are counted there. -/
structure Lasting (permitted : Fault → Prop) (onFrame : σ → StateM ω σ) (budget : Nat) (holds : Drive σ → ω → Prop) :
    Prop where
  lenient : ∀ fault, fault ≠ .notQuiescent → permitted fault
  drive : ∀ (thread : ThreadId) {driving : Drive σ} {host : ω}, holds driving host →
    (drive onFrame budget thread driving).Meets permitted (fun result later => holds result.2 later) host
  passes : ∀ {driving : Drive σ} {host : ω} (passes : UInt32), holds driving host →
    holds { driving with report := { driving.report with passes } } host
  notice : ∀ {driving : Drive σ} {host : ω} {notice : Notice}, (∀ source target, notice ≠ .activity (.resume source target)) →
    holds driving host → holds driving (Host.notice notice host)

namespace Lasting
variable {permitted : Fault → Prop} {holds : Drive σ → ω → Prop}

theorem countPass (lasting : Lasting permitted onFrame budget holds) {driving : Drive σ} {host : ω}
    (held : holds driving host) : (countPass driving).Meets permitted holds host := by
  refine .bind (count_meets (lasting.lenient _ (by simp)) driving.report.passes host) ?_
  rintro passes _ ⟨_, rfl⟩
  exact .pure (lasting.passes passes held)

theorem pass (lasting : Lasting permitted onFrame budget holds) (order : List ThreadId) {driving : Drive σ} {host : ω}
    (held : holds driving host) :
    (pass onFrame budget order driving).Meets permitted (fun result later => holds result.2 later) host := by
  induction order generalizing driving host with
  | nil => exact .pure held
  | cons thread rest ih =>
    refine .bind (lasting.drive thread held) ?_
    rintro ⟨undisturbed, later⟩ host held
    cases undisturbed with
    | true => exact ih held
    | false => exact .pure held

theorem strict (lasting : Lasting permitted onFrame budget holds) (order : List ThreadId) (rounds : Nat)
    {driving : Drive σ} {host : ω} (held : holds driving host) :
    (strict onFrame budget order rounds driving).Meets permitted holds host := by
  induction rounds generalizing driving host with
  | zero => exact .throw (lasting.lenient _ (by simp))
  | succ rounds ih =>
    refine .bind (lasting.countPass held) fun counted host held => .bind (lasting.pass order held) ?_
    rintro ⟨disturbed, later⟩ host held
    cases disturbed with
    | none => exact .pure held
    | some thread => exact .after_report (ih (lasting.notice (by simp) held))

theorem driveUndisturbed (lasting : Lasting permitted onFrame budget holds) (thread : ThreadId) (rounds : Nat)
    {driving : Drive σ} {host : ω} (held : holds driving host) :
    (driveUndisturbed onFrame budget thread rounds driving).Meets permitted holds host := by
  induction rounds generalizing driving host with
  | zero => exact .throw (lasting.lenient _ (by simp))
  | succ rounds ih =>
    refine .bind (lasting.drive thread held) ?_
    rintro ⟨undisturbed, later⟩ host held
    cases undisturbed with
    | true => exact .pure held
    | false => exact ih held

theorem settle (lasting : Lasting permitted onFrame budget holds) (thread : ThreadId) (rounds : Nat)
    {driving : Drive σ} {host : ω} (held : holds driving host) :
    (settle onFrame budget thread rounds driving).Meets permitted holds host := by
  induction rounds generalizing driving host with
  | zero => exact .throw (lasting.lenient _ (by simp))
  | succ rounds ih =>
    cases present : driving.scheduler.thread? thread with
    | none =>
      rw [settle_missing present]
      exact .throw (lasting.lenient _ (by simp))
    | some found =>
      rw [settle_succ present]
      cases found.settled with
      | true => exact .pure held
      | false => exact .bind (lasting.drive thread held) fun _ _ => ih

theorem settleEach (lasting : Lasting permitted onFrame budget holds) (threads : List ThreadId) {driving : Drive σ}
    {host : ω} (held : holds driving host) :
    (settleEach onFrame budget threads driving).Meets permitted holds host := by
  induction threads generalizing driving host with
  | nil => exact .pure held
  | cons thread rest ih => exact .bind (lasting.settle thread budget held) fun _ _ => ih

theorem driveEach (lasting : Lasting permitted onFrame budget holds) (threads : List ThreadId) {driving : Drive σ}
    {host : ω} (held : holds driving host) :
    (driveEach onFrame budget threads driving).Meets permitted holds host := by
  induction threads generalizing driving host with
  | nil => exact .pure held
  | cons thread rest ih => exact .bind (lasting.drive thread held) fun _ _ => ih

/-- The last loop of the fast method ends for one reason only. -/
theorem settleRest (lasting : Lasting permitted onFrame budget holds) (rounds : Nat) {driving : Drive σ} {host : ω}
    (held : holds driving host) :
    (settleRest onFrame budget rounds driving).Meets permitted
      (fun later host => holds later host ∧ later.scheduler.quiescent = true) host := by
  induction rounds generalizing driving host with
  | zero => exact .throw (lasting.lenient _ (by simp))
  | succ rounds ih =>
    rw [Save.settleRest]
    cases quiescent : driving.scheduler.quiescent with
    | true => exact .pure ⟨held, quiescent⟩
    | false =>
      refine .bind (lasting.countPass held) fun counted host held => .after_report ?_
      exact .bind (lasting.driveEach _ (lasting.notice (by simp) held)) fun _ _ => ih

theorem fast (lasting : Lasting permitted onFrame budget holds) {driving : Drive σ} {host : ω} (held : holds driving host) :
    (fast onFrame budget driving).Meets permitted
      (fun later host => holds later host ∧ later.scheduler.quiescent = true) host := by
  refine .bind (lasting.countPass held) fun counted host held => ?_
  refine .bind (lasting.driveUndisturbed .cpu budget held) fun driven host held => ?_
  exact .bind (lasting.settleEach _ held) fun settled host held => lasting.settleRest budget held

theorem settleAll (lasting : Lasting permitted onFrame budget holds) (method : SaveMethod) {driving : Drive σ} {host : ω}
    (held : holds driving host) : (settleAll onFrame budget method driving).Meets permitted holds host := by
  cases method with
  | fast => exact (lasting.fast held).mono fun _ _ => And.left
  | strict => exact lasting.strict _ budget held

end Lasting
end MultiClock.Save
