import MultiClock.Proofs.DriveRules
import MultiClock.Proofs.MachineInvariant

/-! A run or a save that ends well has passed through states of the machine from its first one to its
last one, so what holds at every moment still holds at the end. -/

namespace MultiClock.Machine

variable [Host ω] {loads : Loads} {kinds : List CoprocessorKind} {start : Machine}

/-- No claim about how a run breaks off. -/
private abbrev anyhow : Fault → Prop := fun _ => True

/-- Back with the host, on the way from the start and in the same mode. -/
def Returned (start : Machine) (mode : Scheduler.Mode) (result : Scheduler × Board) : Prop :=
  Through start ⟨result.1, result.2⟩ ∧ result.1.entered = false ∧ result.1.mode = mode

theorem runSlices_through (few : kinds.length ≤ Cartridge.maxCoprocessors) (sound : start.Sound loads kinds) (budget : Nat)
    {scheduler : Scheduler} {board : Board} {host : ω} (through : Through start ⟨scheduler, board⟩)
    (inside : scheduler.entered = true) :
    (scheduler.runSlices budget board).Meets anyhow (fun result _ => Returned start scheduler.mode result) host := by
  induction budget generalizing scheduler board host with
  | zero => exact .throw trivial
  | succ budget ih =>
    rw [Scheduler.runSlices]
    cases sliced : ChipSet.slice scheduler.active board scheduler with
    | error fault => exact .throw trivial
    | ok result =>
      obtain ⟨moved, later, notices⟩ := result
      have calls := ((Board.disciplined scheduler.active board scheduler).of_ok sliced).1
      have kept := calls.kept (Scheduler.indexed_of_wiring few (sound.through few through).wired)
      have through := through.slice inside sliced
      have inside := kept.entered.trans inside
      rw [← kept.mode]
      simp only [Run.ofExcept_ok, pure_bind]
      refine .after_reportAll ?_
      cases asked : later.transfer with
      | none =>
        exact ih through inside
      | some transfer =>
        cases transfer with
        | resume target =>
          exact .after_report (ih (through.resume asked) inside)
        | leave event =>
          exact .after_report (.pure ⟨through.leave asked, rfl, rfl⟩)

theorem enter_through (few : kinds.length ≤ Cartridge.maxCoprocessors) (sound : start.Sound loads kinds) (budget : Nat)
    {scheduler : Scheduler} {board : Board} {host : ω} (through : Through start ⟨scheduler, board⟩) :
    (scheduler.enter budget board).Meets anyhow (fun result _ => Returned start scheduler.mode result) host := by
  rw [Scheduler.enter]
  split
  next => exact .throw trivial
  next outside =>
    split
    next => exact .throw trivial
    next => exact runSlices_through few sound budget (through.enter (Bool.eq_false_iff.mpr outside)) rfl

/-- What the host does at a frame belongs to the way. -/
theorem completeFrame_through (cheats : List Cheat) {scheduler : Scheduler} {board : Board} {host : ω}
    (through : Through start ⟨scheduler, board⟩) :
    Run.Meets anyhow (fun later _ => Through start ⟨scheduler, later⟩)
      ((board.completeFrame cheats : StateM ω Board) : Run ω Board) host := .lift (through.frame cheats host)

theorem run_through (few : kinds.length ≤ Cartridge.maxCoprocessors) (sound : start.Sound loads kinds) (budget : Nat)
    (cheats : List Cheat) {host : ω} {machine : Machine} (through : Through start machine) :
    (machine.run budget cheats).Meets anyhow
      (fun later _ => Returned start machine.scheduler.mode (later.scheduler, later.board)) host := by
  suffices looped : ∀ rounds, (run.rounds budget cheats rounds machine).Meets anyhow
      (fun later _ => Returned start machine.scheduler.mode (later.scheduler, later.board)) host from looped budget
  intro rounds
  induction rounds generalizing machine host with
  | zero => exact .throw trivial
  | succ rounds ih =>
    rw [run.rounds]
    refine .bind (enter_through few sound budget through) ?_
    rintro ⟨scheduler, board⟩ later ⟨through, outside, mode⟩
    simp only at through outside mode ⊢
    cases event : scheduler.event with
    | frame =>
      refine .bind (completeFrame_through cheats through) fun board host through => .pure ⟨through, outside, mode⟩
    | synchronized | desynchronized =>
      rw [← mode]
      exact ih through

/-- What a drive in progress has passed through. -/
def OnTheWay (start : Machine) (driving : Save.Drive Board) (_ : ω) : Prop :=
  Through start ⟨driving.scheduler, driving.chips⟩

theorem enterUntilPoint_through (few : kinds.length ≤ Cartridge.maxCoprocessors) (sound : start.Sound loads kinds)
    (cheats : List Cheat) (budget : Nat) (thread : ThreadId) (rounds : Nat) {driving : Save.Drive Board} {host : ω}
    (through : OnTheWay start driving host) :
    (Save.enterUntilPoint (Board.completeFrame cheats) budget thread rounds driving).Meets anyhow
      (fun result later => OnTheWay start result.2 later) host := by
  induction rounds generalizing driving host with
  | zero => exact .throw trivial
  | succ rounds ih =>
    rw [Save.enterUntilPoint]
    refine .bind (enter_through few sound budget through) ?_
    rintro ⟨scheduler, board⟩ later ⟨through, _⟩
    simp only at through ⊢
    split
    next =>
      refine .bind (Save.count_meets trivial driving.report.frames later) ?_
      rintro frames _ ⟨_, rfl⟩
      exact .bind (completeFrame_through cheats through) fun _ _ through => ih through
    next =>
      split
      next => exact .pure through
      next =>
        refine .bind (Save.count_meets trivial driving.report.desyncs later) ?_
        rintro desyncs _ ⟨_, rfl⟩
        exact .pure through

theorem onTheWay_lasting (few : kinds.length ≤ Cartridge.maxCoprocessors) (sound : start.Sound loads kinds)
    (cheats : List Cheat) (budget : Nat) :
    Save.Lasting anyhow (Board.completeFrame cheats : Board → StateM ω Board) budget (OnTheWay start) where
  lenient _ _ := trivial
  drive thread driving host through := by
    simp only [Save.drive]
    cases set : driving.scheduler.setActive thread with
    | error => exact .throw trivial
    | ok scheduler =>
      simp only [Run.ofExcept_ok, pure_bind]
      exact enterUntilPoint_through few sound cheats budget thread budget (through.active set)
  passes _ through := through
  notice _ through := through

theorem handBack_through {method : SaveMethod} {driving : Save.Drive Board} {host : ω}
    (through : OnTheWay start driving host) : (Save.handBack method driving).Meets anyhow (OnTheWay start) host := by
  obtain ⟨scheduler, board, report⟩ := driving
  rw [Save.handBack]
  split
  next => exact .throw trivial
  next =>
    cases normal : scheduler.setMode .run with
    | error => exact .throw trivial
    | ok steered =>
      simp only [Run.ofExcept_ok, pure_bind]
      cases first : steered.setActive .cpu with
      | error => exact .throw trivial
      | ok last =>
        simp only [Run.ofExcept_ok, pure_bind]
        exact .after_report (.pure ((through.mode normal).active first).clear)

theorem runToSave_through (few : kinds.length ≤ Cartridge.maxCoprocessors) (sound : start.Sound loads kinds)
    (cheats : List Cheat) (budget : Nat) (method : SaveMethod) {host : ω} :
    (Save.runToSave (Board.completeFrame cheats) budget method start.scheduler start.board).Meets anyhow
      (OnTheWay start) host := by
  cases outside : start.scheduler.entered with
  | true =>
    rw [Save.runToSave, Scheduler.setMode, if_pos (by exact outside)]
    exact .throw trivial
  | false =>
    rw [Save.runToSave_eq outside]
    have steered : Through start ⟨Save.steered start.scheduler, start.board⟩ :=
      (Through.here.clear).mode (if_neg (Bool.eq_false_iff.mp outside))
    refine .bind ((onTheWay_lasting few sound cheats budget).settleAll method steered) ?_
    exact fun driving host through => handBack_through through

end MultiClock.Machine
