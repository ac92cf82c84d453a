import MultiClock.Proofs.ChipActions

/-! What each action does to the threads: where they are suspended, how their clocks move, and which
transfer is asked for. -/

namespace MultiClock

namespace Action

/-- Where the acting thread is suspended afterwards, if the action says so. -/
def state? : Action → Option Thread.State
  | stop => some .parked
  | pass | passStep _ => some .running
  | rest | step _ | resume _ | frame => none

def request (desynchronized : Bool) : Action → Option Scheduler.Transfer
  | rest | step _ | pass | passStep _ => none
  | resume target => some (.resume target)
  | frame => some (.leave .frame)
  | stop => some (.leave (if desynchronized then .desynchronized else .synchronized))

def frames : Action → Nat
  | frame => 1
  | rest | step _ | stop | pass | passStep _ | resume _ => 0

/-- The disturbance flag after an action. -/
def flag (desynchronized synchronizing : Bool) : Action → Bool
  | rest | step _ | pass | passStep _ | frame => desynchronized
  | resume _ => desynchronized || synchronizing
  | stop => false

end Action

namespace Scheduler
variable {id : ThreadId} {scheduler later : Scheduler} {action : Action}

theorem passed_of_point (point : scheduler.synchronizePoint id = .ok (true, later)) :
    ∃ thread, scheduler.thread? id = some thread ∧ scheduler.Passing id thread ∧ later = scheduler.passed id := by
  obtain ⟨_, thread, found, ⟨_, passing, same⟩ | ⟨impossible, _⟩⟩ := synchronizePoint_eq_ok.mp point
  · exact ⟨thread, found, passing, same⟩
  · cases impossible

theorem stopped_of_point (point : scheduler.synchronizePoint id = .ok (false, later)) :
    ∃ thread, scheduler.thread? id = some thread ∧ ¬ scheduler.Passing id thread ∧ later = scheduler.stopped id := by
  obtain ⟨_, thread, found, ⟨impossible, _⟩ | ⟨_, stays, _, same⟩⟩ := synchronizePoint_eq_ok.mp point
  · cases impossible
  · exact ⟨thread, found, stays, same⟩

theorem state?_modifyThread (scheduler : Scheduler) (id other : ThreadId) (change : Thread → Thread) :
    (scheduler.modifyThread id change).state? other =
      if id = other then (scheduler.thread? other).map fun thread => (change thread).state else scheduler.state? other := by
  rw [state?, thread?_modifyThread]
  split
  · cases scheduler.thread? other <;> rfl
  · rfl

theorem time_modifyThread (scheduler : Scheduler) (id other : ThreadId) {change : Thread → Thread}
    (kept : ∀ thread, (change thread).clock = thread.clock) :
    (scheduler.modifyThread id change).time other = scheduler.time other := by
  rw [time, thread?_modifyThread, time]
  split
  · cases scheduler.thread? other <;> simp [kept]
  · rfl

theorem state?_passed {thread : Thread} (found : scheduler.thread? id = some thread) (other : ThreadId) :
    (scheduler.passed id).state? other = if id = other then some .running else scheduler.state? other := by
  rw [passed, state?_modifyThread]
  split
  next same => simp [← same, found]
  next => rfl

theorem state?_stopped {thread : Thread} (found : scheduler.thread? id = some thread) (other : ThreadId) :
    (scheduler.stopped id).state? other = if id = other then some .parked else scheduler.state? other := by
  change (scheduler.modifyThread id Thread.park).state? other = _
  rw [state?_modifyThread]
  split
  next same => simp [← same, found, Thread.park]
  next => rfl

/-- Only the acting thread is suspended elsewhere afterwards. -/
theorem Does.state? (does : scheduler.Does id action later) (indexed : scheduler.Indexed) (other : ThreadId) :
    later.state? other = if id = other then action.state?.or (scheduler.state? id) else scheduler.state? other := by
  cases does with
  | rest => by_cases same : id = other <;> simp [Action.state?, same]
  | resume resumed =>
    obtain ⟨_, _, _, rfl⟩ := resume_eq_ok.mp resumed
    by_cases same : id = other <;> simp [Action.state?, same, Scheduler.state?, thread?]
  | frame left =>
    obtain ⟨_, _, rfl⟩ := leave_eq_ok.mp left
    by_cases same : id = other <;> simp [Action.state?, same, Scheduler.state?, thread?]
  | step stepped =>
    rw [(step_eq_ok indexed stepped).state other]
    by_cases same : id = other <;> simp [Action.state?, same]
  | stop point =>
    obtain ⟨thread, found, _, rfl⟩ := stopped_of_point point
    rw [state?_stopped found]
    rfl
  | pass point =>
    obtain ⟨thread, found, _, rfl⟩ := passed_of_point point
    rw [state?_passed found]
    rfl
  | passStep point stepped =>
    obtain ⟨thread, found, _, rfl⟩ := passed_of_point point
    rw [(step_eq_ok (indexed.of_shape (Kept.point point).shape) stepped).state other, state?_passed found]
    rfl

theorem Does.kept (does : scheduler.Does id action later) (indexed : scheduler.Indexed) : Kept id scheduler later :=
  does.calls.kept indexed

theorem Does.transfer (does : scheduler.Does id action later) (indexed : scheduler.Indexed)
    (free : scheduler.transfer = none) : later.transfer = action.request scheduler.desynchronized := by
  cases does with
  | rest => exact free
  | step stepped =>
    rw [(step_eq_ok indexed stepped).threads]
    exact free
  | stop point =>
    obtain ⟨thread, _, _, rfl⟩ := stopped_of_point point
    rfl
  | pass point =>
    obtain ⟨thread, _, _, rfl⟩ := passed_of_point point
    exact free
  | passStep point stepped =>
    obtain ⟨thread, _, _, rfl⟩ := passed_of_point point
    rw [(step_eq_ok (indexed.of_shape (Kept.point point).shape) stepped).threads]
    exact free
  | resume resumed =>
    obtain ⟨_, _, _, rfl⟩ := resume_eq_ok.mp resumed
    rfl
  | frame left =>
    obtain ⟨_, _, rfl⟩ := leave_eq_ok.mp left
    rfl

/-- A transfer that is asked for after an action goes to a thread that exists, or it was asked for before. -/
theorem Does.target (does : scheduler.Does id action later) (indexed : scheduler.Indexed) {target : ThreadId}
    (asked : later.transfer = some (.resume target)) :
    scheduler.transfer = some (.resume target) ∨ target.index < scheduler.threads.size := by
  cases does with
  | rest => exact .inl asked
  | step stepped =>
    rw [(step_eq_ok indexed stepped).threads] at asked
    exact .inl asked
  | stop point =>
    obtain ⟨thread, _, _, rfl⟩ := stopped_of_point point
    cases asked
  | pass point =>
    obtain ⟨thread, _, _, rfl⟩ := passed_of_point point
    exact .inl asked
  | passStep point stepped =>
    obtain ⟨thread, _, _, rfl⟩ := passed_of_point point
    rw [(step_eq_ok (indexed.of_shape (Kept.point point).shape) stepped).threads] at asked
    exact .inl asked
  | resume resumed =>
    obtain ⟨_, _, inside, rfl⟩ := resume_eq_ok.mp resumed
    cases asked
    exact .inr inside
  | frame left =>
    obtain ⟨_, _, rfl⟩ := leave_eq_ok.mp left
    cases asked

theorem Does.desynchronized (does : scheduler.Does id action later) (indexed : scheduler.Indexed) :
    later.desynchronized = action.flag scheduler.desynchronized scheduler.synchronizing := by
  cases does with
  | rest => rfl
  | step stepped =>
    rw [(step_eq_ok indexed stepped).threads]
    rfl
  | stop point =>
    obtain ⟨thread, _, _, rfl⟩ := stopped_of_point point
    rfl
  | pass point =>
    obtain ⟨thread, _, _, rfl⟩ := passed_of_point point
    rfl
  | passStep point stepped =>
    obtain ⟨thread, _, _, rfl⟩ := passed_of_point point
    rw [(step_eq_ok (indexed.of_shape (Kept.point point).shape) stepped).threads]
    rfl
  | resume resumed =>
    obtain ⟨_, _, _, rfl⟩ := resume_eq_ok.mp resumed
    rfl
  | frame left =>
    obtain ⟨_, _, rfl⟩ := leave_eq_ok.mp left
    rfl

theorem time_passed (scheduler : Scheduler) (id other : ThreadId) :
    (scheduler.passed id).time other = scheduler.time other :=
  time_modifyThread scheduler id other fun _ => rfl

theorem time_stopped (scheduler : Scheduler) (id other : ThreadId) :
    (scheduler.stopped id).time other = scheduler.time other :=
  time_modifyThread scheduler id other fun _ => rfl

theorem rate_of_shape {first second : Scheduler} (same : second.shape = first.shape) (id : ThreadId) :
    second.rate id = first.rate id := by
  have rates : ∀ scheduler : Scheduler, scheduler.rate id = (scheduler.shape[id.index]?.map (·.2.toNat)).getD 0 := by
    intro scheduler
    simp only [rate, shape, thread?, List.getElem?_map, Array.getElem?_toList]
    cases scheduler.threads[id.index]? <;> rfl
  rw [rates, rates, same]

/-- An action of a dependent moves its own clock forward. -/
theorem Does.time_own (does : scheduler.Does id action later) (indexed : scheduler.Indexed) (dependent : id ≠ .cpu) :
    later.time id = scheduler.time id + (action.units * scheduler.rate .cpu : Nat) := by
  cases does with
  | rest => simp [Action.units]
  | step stepped => exact (step_eq_ok indexed stepped).own dependent
  | stop point =>
    obtain ⟨thread, _, _, rfl⟩ := stopped_of_point point
    simp [time_stopped, Action.units]
  | pass point =>
    obtain ⟨thread, _, _, rfl⟩ := passed_of_point point
    simp [time_passed, Action.units]
  | passStep point stepped =>
    have kept : Kept id _ _ := Kept.point point
    obtain ⟨thread, _, _, rfl⟩ := passed_of_point point
    rw [(step_eq_ok (indexed.of_shape kept.shape) stepped).own dependent, time_passed, rate_of_shape kept.shape]
    rfl
  | resume resumed =>
    obtain ⟨_, _, _, rfl⟩ := resume_eq_ok.mp resumed
    simp [Action.units, time, thread?]
  | frame left =>
    obtain ⟨_, _, rfl⟩ := leave_eq_ok.mp left
    simp [Action.units, time, thread?]

/-- An action of the reference moves every other clock back. -/
theorem Does.time_others (does : scheduler.Does .cpu action later) (indexed : scheduler.Indexed) {other : ThreadId}
    (dependent : other ≠ .cpu) :
    later.time other = scheduler.time other - (action.units * scheduler.rate other : Nat) := by
  cases does with
  | rest => simp [Action.units]
  | step stepped => exact (step_eq_ok indexed stepped).dependents rfl other dependent
  | stop point =>
    obtain ⟨thread, _, _, rfl⟩ := stopped_of_point point
    simp [time_stopped, Action.units]
  | pass point =>
    obtain ⟨thread, _, _, rfl⟩ := passed_of_point point
    simp [time_passed, Action.units]
  | passStep point stepped =>
    have kept : Kept .cpu _ _ := Kept.point point
    obtain ⟨thread, _, _, rfl⟩ := passed_of_point point
    rw [(step_eq_ok (indexed.of_shape kept.shape) stepped).dependents rfl other dependent, time_passed,
      rate_of_shape kept.shape]
    rfl
  | resume resumed =>
    obtain ⟨_, _, _, rfl⟩ := resume_eq_ok.mp resumed
    simp [Action.units, time, thread?]
  | frame left =>
    obtain ⟨_, _, rfl⟩ := leave_eq_ok.mp left
    simp [Action.units, time, thread?]

/-- The reference stands still, whoever acts. -/
theorem Does.time_reference (does : scheduler.Does id action later) (indexed : scheduler.Indexed) :
    later.time .cpu = scheduler.time .cpu := by
  by_cases reference : id = .cpu
  · subst reference
    cases does with
    | rest => rfl
    | step stepped => exact (step_eq_ok indexed stepped).reference rfl
    | stop point =>
      obtain ⟨thread, _, _, rfl⟩ := stopped_of_point point
      exact time_stopped _ _ _
    | pass point =>
      obtain ⟨thread, _, _, rfl⟩ := passed_of_point point
      exact time_passed _ _ _
    | passStep point stepped =>
      have kept : Kept .cpu _ _ := Kept.point point
      obtain ⟨thread, _, _, rfl⟩ := passed_of_point point
      rw [(step_eq_ok (indexed.of_shape kept.shape) stepped).reference rfl, time_passed]
    | resume resumed =>
      obtain ⟨_, _, _, rfl⟩ := resume_eq_ok.mp resumed
      rfl
    | frame left =>
      obtain ⟨_, _, rfl⟩ := leave_eq_ok.mp left
      rfl
  · simp only [time, (does.kept indexed).others reference .cpu (Ne.symm reference)]

/-- A thread that goes on at its point had the permission to. -/
theorem Does.passing (does : scheduler.Does id action later) (passes : action.state? = some .running) :
    ∃ thread, scheduler.thread? id = some thread ∧ scheduler.Passing id thread := by
  cases does with
  | pass point =>
    obtain ⟨thread, found, passing, _⟩ := passed_of_point point
    exact ⟨thread, found, passing⟩
  | passStep point _ =>
    obtain ⟨thread, found, passing, _⟩ := passed_of_point point
    exact ⟨thread, found, passing⟩
  | rest | step | resume | frame | stop => cases passes

/-- A thread that stops at its point is settled there. -/
theorem Does.rests (does : scheduler.Does id .stop later) (indexed : scheduler.Indexed) : later.Rests id := by
  cases does with
  | stop point =>
    obtain ⟨thread, found, stays, rfl⟩ := stopped_of_point point
    exact settled_stopped indexed found stays

end Scheduler
end MultiClock
