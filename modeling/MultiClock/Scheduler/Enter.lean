import MultiClock.Chip

/-! The loop that interleaves the chips. Nothing bounds how many slices pass before one of them
leaves, so the host says how many it allows. -/

namespace MultiClock

namespace Scheduler

/-- More slices than any host could wait for. -/
def ampleBudget : Nat := 0x4000000000000000

/-- Executes slices until one of them leaves. -/
@[specialize] def runSlices [ChipSet σ] [Host ω] :
    (budget : Nat) → Scheduler → σ → Run ω (Scheduler × σ)
  | 0, _, _ => throw .exhausted
  | budget + 1, scheduler, chips => do
    let (chips, scheduler, notices) ← Run.ofExcept (ChipSet.slice scheduler.active chips scheduler)
    Run.reportAll notices
    match scheduler.transfer with
    | none => runSlices budget scheduler chips
    | some (.resume target) =>
      Run.report (.activity (.resume scheduler.active target))
      runSlices budget (scheduler.transferTo target) chips
    | some (.leave event) =>
      Run.report (.activity (.leave scheduler.active event))
      return ({ scheduler with event, transfer := none, entered := false }, chips)

/-- Transfers control to the active thread and runs until a chip leaves. The reason is the event of
the scheduler afterwards. -/
@[specialize] def enter [ChipSet σ] [Host ω] (budget : Nat) (scheduler : Scheduler) (chips : σ) :
    Run ω (Scheduler × σ) := do
  if scheduler.entered then throw .insideSimulation
  if (scheduler.thread? scheduler.active).isNone then throw (.missingThread scheduler.active)
  runSlices budget { scheduler.transferTo scheduler.active with entered := true } chips

end Scheduler
end MultiClock
