import MultiClock.Save.Method
import MultiClock.Scheduler.Enter

/-! Drives every chip to its synchronization point, so that a portable snapshot can leave out what
is in flight. A drive of one thread ends as soon as any thread reaches its point, and it is
undisturbed if that was the driven thread and no chip was resumed on the way. The strict method
starts over after a disturbance; the fast method repeats only what is left to do. -/

namespace MultiClock.Save

/-- A set of chips while it is driven. -/
structure Drive (σ : Type) where
  scheduler : Scheduler
  chips : σ
  report : SaveReport

/-- The order in which the strict method visits the threads: the audio processor around the
reference, then the others. -/
def strictOrder (scheduler : Scheduler) : List ThreadId :=
  let first := if 1 < scheduler.threads.size then [.smp, .cpu, .smp] else [.cpu]
  first ++ (scheduler.threads.toList.map Thread.id).filter fun id => id != .cpu && id != .smp

section

variable [ChipSet σ] [Host ω] (onFrame : σ → StateM ω σ) (budget : Nat)

/-- Enters until some thread reaches its point. Frames on the way are handled as ever. -/
@[specialize] def enterUntilPoint (thread : ThreadId) : Nat → Drive σ → Run ω (Bool × Drive σ)
  | 0, _ => throw .exhausted
  | rounds + 1, ⟨scheduler, chips, report⟩ => do
    let (scheduler, chips) ← scheduler.enter budget chips
    if scheduler.event = .frame then
      let frames ← Run.ofExcept (Checked.add32 report.frames 1)
      let chips ← onFrame chips
      enterUntilPoint thread rounds ⟨scheduler, chips, { report with frames }⟩
    else if scheduler.event = .synchronized ∧ scheduler.active = thread then
      return (true, ⟨scheduler, chips, report⟩)
    else
      let desyncs ← Run.ofExcept (Checked.add32 report.desyncs 1)
      return (false, ⟨scheduler, chips, { report with desyncs }⟩)

/-- Drives one thread. True if it reached its point undisturbed. -/
@[specialize] def drive (thread : ThreadId) (driving : Drive σ) : Run ω (Bool × Drive σ) := do
  let ⟨scheduler, chips, report⟩ := driving
  let scheduler ← Run.ofExcept (scheduler.setActive thread)
  enterUntilPoint onFrame budget thread budget ⟨scheduler, chips, report⟩

def countPass (driving : Drive σ) : Run ω (Drive σ) := do
  let ⟨scheduler, chips, report⟩ := driving
  let passes ← Run.ofExcept (Checked.add32 report.passes 1)
  return ⟨scheduler, chips, { report with passes }⟩

/-- Drives threads in order, up to the first one that is disturbed. -/
@[specialize] def pass : List ThreadId → Drive σ → Run ω (Option ThreadId × Drive σ)
  | [], driving => return (none, driving)
  | thread :: rest, driving => do
    let (undisturbed, driving) ← drive onFrame budget thread driving
    if undisturbed then pass rest driving else return (some thread, driving)

/-- Repeats whole passes until one is undisturbed. -/
@[specialize] def strict (order : List ThreadId) : Nat → Drive σ → Run ω (Drive σ)
  | 0, _ => throw .exhausted
  | rounds + 1, driving => do
    let driving ← countPass driving
    let (disturbed, driving) ← pass onFrame budget order driving
    match disturbed with
    | none => return driving
    | some thread =>
      Run.report (.passDisturbed driving.report.passes thread)
      strict order rounds driving

/-- Repeats the drive of one thread until it is undisturbed. -/
@[specialize] def driveUndisturbed (thread : ThreadId) : Nat → Drive σ → Run ω (Drive σ)
  | 0, _ => throw .exhausted
  | rounds + 1, driving => do
    let (undisturbed, driving) ← drive onFrame budget thread driving
    if undisturbed then return driving else driveUndisturbed thread rounds driving

/-- Drives one thread until it is settled, if it is not yet. -/
@[specialize] def settle (thread : ThreadId) : Nat → Drive σ → Run ω (Drive σ)
  | 0, _ => throw .exhausted
  | rounds + 1, driving => do
    let settled ← Run.ofExcept (Thread.settled <$> driving.scheduler.thread thread)
    if settled then return driving
    let (_, driving) ← drive onFrame budget thread driving
    settle thread rounds driving

@[specialize] def settleEach : List ThreadId → Drive σ → Run ω (Drive σ)
  | [], driving => return driving
  | thread :: rest, driving => do
    let driving ← settle onFrame budget thread budget driving
    settleEach rest driving

@[specialize] def driveEach : List ThreadId → Drive σ → Run ω (Drive σ)
  | [], driving => return driving
  | thread :: rest, driving => do
    let (_, driving) ← drive onFrame budget thread driving
    driveEach rest driving

/-- Drives the threads that were resumed after they had been settled, until all are settled. -/
@[specialize] def settleRest : Nat → Drive σ → Run ω (Drive σ)
  | 0, _ => throw .exhausted
  | rounds + 1, driving => do
    if driving.scheduler.quiescent then return driving
    let driving ← countPass driving
    let unsettled := driving.scheduler.threads.toList.filter (!·.settled)
    Run.report (.redriving unsettled.length)
    let driving ← driveEach onFrame budget (unsettled.map Thread.id) driving
    settleRest rounds driving

/-- The reference first, then every other thread. -/
@[specialize] def fast (driving : Drive σ) : Run ω (Drive σ) := do
  let driving ← countPass driving
  let driving ← driveUndisturbed onFrame budget .cpu budget driving
  let others := (driving.scheduler.threads.toList.map Thread.id).filter (· != .cpu)
  let driving ← settleEach onFrame budget others driving
  settleRest onFrame budget budget driving

/-- Drives all threads to their synchronization points. Afterwards the machine is at a consistent
instant, in normal execution and with the reference active. -/
@[specialize] def runToSave (method : SaveMethod) (scheduler : Scheduler) (chips : σ) :
    Run ω (Drive σ) := do
  let scheduler ← Run.ofExcept (scheduler.clearDesynchronized.setMode .synchronize)
  let driving : Drive σ := ⟨scheduler, chips, SaveReport.zero⟩
  let driving ← match method with
    | .fast => fast onFrame budget driving
    | .strict => strict onFrame budget (strictOrder scheduler) budget driving
  let ⟨scheduler, chips, report⟩ := driving
  if !scheduler.quiescent then throw .notQuiescent
  let scheduler ← Run.ofExcept (scheduler.setMode .run)
  let scheduler ← Run.ofExcept (scheduler.setActive .cpu)
  Run.report (.driven method report)
  return ⟨scheduler.clearDesynchronized, chips, report⟩

end

end MultiClock.Save
