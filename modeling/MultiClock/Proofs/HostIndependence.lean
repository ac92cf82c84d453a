import MultiClock.Console
import MultiClock.Proofs.Outcome

/-! Who listens makes no difference. A console does the same under any two hosts, and whatever relates the two, if it lasts as long as
both hear the same, still relates them when the frames are over. -/

namespace MultiClock

/-- A relation between two hosts that lasts as long as both hear the same. -/
structure Tuned [Host ω] [Host υ] (alike : ω → υ → Prop) : Prop where
  notice : ∀ notice host other, alike host other → alike (Host.notice notice host) (Host.notice notice other)
  frame : ∀ picture samples host other, alike host other → alike (Host.frame picture samples host) (Host.frame picture samples other)

theorem Tuned.notices [Host ω] [Host υ] {alike : ω → υ → Prop} (tuned : Tuned alike) (notices : List Notice) {host : ω} {other : υ}
    (related : alike host other) : alike (notices.foldr Host.notice host) (notices.foldr Host.notice other) := by
  induction notices with
  | nil => exact related
  | cons notice rest ih => exact tuned.notice notice _ _ ih

/-- Under related hosts both come to the same, and the hosts are related afterwards. -/
def Run.Parallel (alike : ω → υ → Prop) (first : Run ω α) (second : Run υ α) : Prop :=
  ∀ host other, alike host other → (second other).1 = (first host).1 ∧ alike (first host).2 (second other).2

namespace Run.Parallel

variable {alike : ω → υ → Prop}

theorem pure (value : α) : Parallel alike (pure value : Run ω α) (pure value : Run υ α) := by
  intro host other related
  exact ⟨rfl, related⟩

theorem throw (fault : Fault) : Parallel alike (throw fault : Run ω α) (throw fault : Run υ α) := by
  intro host other related
  exact ⟨rfl, related⟩

theorem bind {first : Run ω α} {second : Run υ α} {next : α → Run ω β} {follow : α → Run υ β} (parallel : Parallel alike first second)
    (rest : ∀ value, Parallel alike (next value) (follow value)) : Parallel alike (first >>= next) (second >>= follow) := by
  intro host other related
  rw [bind_apply, bind_apply]
  obtain ⟨same, related⟩ := parallel host other related
  generalize first host = one at same related ⊢
  generalize second other = two at same related ⊢
  obtain ⟨_, heard⟩ := one
  obtain ⟨result, told⟩ := two
  subst same
  cases result with
  | ok value => exact rest value heard told related
  | error fault => exact ⟨rfl, related⟩

theorem ofExcept (result : Except Fault α) : Parallel alike (Run.ofExcept result : Run ω α) (Run.ofExcept result : Run υ α) := by
  cases result with
  | ok value => exact .pure value
  | error fault => exact .throw fault

variable [Host ω] [Host υ] (tuned : Tuned alike)
include tuned

theorem report (notice : Notice) : Parallel alike (Run.report notice : Run ω Unit) (Run.report notice : Run υ Unit) := by
  intro host other related
  exact ⟨rfl, tuned.notice notice host other related⟩

theorem reportAll (notices : List Notice) : Parallel alike (Run.reportAll notices : Run ω Unit) (Run.reportAll notices : Run υ Unit) := by
  intro host other related
  exact ⟨rfl, tuned.notices notices related⟩

/-- The chips that a frame leaves behind do not depend on the host that gets it. -/
theorem completeFrame (cheats : List Cheat) (board : Board) : Parallel alike
    (liftM (board.completeFrame cheats : StateM ω Board) : Run ω Board) (liftM (board.completeFrame cheats : StateM υ Board) : Run υ Board) := by
  intro host other related
  exact ⟨rfl, tuned.frame _ _ host other related⟩

theorem runSlices [ChipSet σ] (budget : Nat) (scheduler : Scheduler) (chips : σ) : Parallel alike
    (scheduler.runSlices budget chips : Run ω (Scheduler × σ)) (scheduler.runSlices budget chips : Run υ (Scheduler × σ)) := by
  induction budget generalizing scheduler chips with
  | zero => exact .throw .exhausted
  | succ budget ih =>
    rw [Scheduler.runSlices, Scheduler.runSlices]
    apply (ofExcept _).bind
    intro result
    obtain ⟨moved, later, notices⟩ := result
    apply (reportAll tuned notices).bind
    intro _
    cases later.transfer with
    | none => exact ih later moved
    | some transfer =>
      cases transfer with
      | resume target =>
        apply (report tuned _).bind
        intro _
        exact ih (later.transferTo target) moved
      | leave event =>
        apply (report tuned _).bind
        intro _
        exact .pure _

theorem enter [ChipSet σ] (budget : Nat) (scheduler : Scheduler) (chips : σ) : Parallel alike
    (scheduler.enter budget chips : Run ω (Scheduler × σ)) (scheduler.enter budget chips : Run υ (Scheduler × σ)) := by
  rw [Scheduler.enter, Scheduler.enter]
  split
  next => exact .throw .insideSimulation
  next =>
    split
    next => exact .throw _
    next => exact runSlices tuned budget _ chips

theorem rounds (budget : Nat) (cheats : List Cheat) (count : Nat) (machine : Machine) : Parallel alike
    (Machine.run.rounds budget cheats count machine : Run ω Machine) (Machine.run.rounds budget cheats count machine : Run υ Machine) := by
  induction count generalizing machine with
  | zero => exact .throw .exhausted
  | succ count ih =>
    rw [Machine.run.rounds, Machine.run.rounds]
    apply (enter tuned budget machine.scheduler machine.board).bind
    intro result
    obtain ⟨scheduler, board⟩ := result
    cases event : scheduler.event with
    | frame =>
      simp only [event]
      apply (completeFrame tuned cheats board).bind
      intro board
      exact .pure _
    | synchronized | desynchronized =>
      simp only [event]
      exact ih ⟨scheduler, board⟩

theorem run (budget : Nat) (console : Console) :
    Parallel alike (console.run budget : Run ω Console) (console.run budget : Run υ Console) := by
  apply (rounds tuned budget console.cheats budget console.machine).bind
  intro machine
  exact .pure _

theorem runFrames (budget count : Nat) (console : Console) :
    Parallel alike (Console.runFrames budget count console : Run ω Console) (Console.runFrames budget count console : Run υ Console) := by
  induction count generalizing console with
  | zero => exact .pure console
  | succ count ih => exact (run tuned budget console).bind ih

end Run.Parallel

end MultiClock
