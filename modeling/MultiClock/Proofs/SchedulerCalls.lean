import MultiClock.Proofs.ClockArithmetic
import MultiClock.Scheduler

/-! What the calls of a scheduler do to its threads. Threads are looked up by name; a scheduler that
created its threads in order keeps each one under its own name, and no call changes that. -/

namespace MultiClock

theorem ThreadId.index_injective {first second : ThreadId} (same : first.index = second.index) : first = second := by
  cases first <;> cases second <;> simp only [index] at same
  all_goals first | rfl | omega | skip
  exact congrArg coprocessor (UInt8.toNat_inj.mp (by omega))

namespace Scheduler

/-- Every thread is at the position that its name says. -/
def Indexed (scheduler : Scheduler) : Prop :=
  ∀ position (thread : Thread), scheduler.threads[position]? = some thread → thread.id.index = position

theorem Indexed.id_eq {scheduler : Scheduler} (indexed : scheduler.Indexed) {id : ThreadId} {thread : Thread}
    (found : scheduler.thread? id = some thread) : thread.id = id :=
  ThreadId.index_injective (indexed id.index thread found)

theorem Indexed.found {scheduler : Scheduler} (indexed : scheduler.Indexed) {thread : Thread}
    (member : thread ∈ scheduler.threads) : scheduler.thread? thread.id = some thread := by
  obtain ⟨position, inside, rfl⟩ := Array.mem_iff_getElem.mp member
  have placed := Array.getElem?_eq_getElem inside
  rw [thread?, indexed position _ placed]
  exact placed

theorem found_of_lt {scheduler : Scheduler} {id : ThreadId} (inside : id.index < scheduler.threads.size) :
    ∃ thread, scheduler.thread? id = some thread :=
  ⟨_, Array.getElem?_eq_getElem inside⟩

theorem lt_of_found {scheduler : Scheduler} {id : ThreadId} {thread : Thread}
    (found : scheduler.thread? id = some thread) : id.index < scheduler.threads.size :=
  (Array.getElem?_eq_some_iff.mp found).1

/-- Where a thread is suspended, if there is such a thread. -/
def state? (scheduler : Scheduler) (id : ThreadId) : Option Thread.State :=
  (scheduler.thread? id).map Thread.state

/-- How far a thread is ahead of the reference. -/
def time (scheduler : Scheduler) (id : ThreadId) : Int :=
  ((scheduler.thread? id).map fun thread => thread.clock.value.toInt).getD 0

/-- The names and the frequencies of the threads, which nothing changes once they are created. -/
def shape (scheduler : Scheduler) : List (ThreadId × UInt32) :=
  scheduler.threads.toList.map fun thread => (thread.id, thread.clock.frequency)

theorem time_eq {scheduler : Scheduler} {id : ThreadId} {thread : Thread}
    (found : scheduler.thread? id = some thread) : scheduler.time id = thread.clock.value.toInt := by
  simp [time, found]

theorem state?_eq {scheduler : Scheduler} {id : ThreadId} {thread : Thread}
    (found : scheduler.thread? id = some thread) : scheduler.state? id = some thread.state := by
  simp [state?, found]

theorem value_eq_zero {scheduler : Scheduler} {id : ThreadId} {thread : Thread} (found : scheduler.thread? id = some thread)
    (level : scheduler.time id = 0) : thread.clock.value = 0 := by
  rw [time_eq found] at level
  exact Int64.toInt_inj.mp level

theorem clock_of_found {scheduler : Scheduler} {id : ThreadId} {thread : Thread}
    (found : scheduler.thread? id = some thread) : scheduler.clock id = .ok thread.clock := by
  simp only [clock, Scheduler.thread, found]
  rfl

theorem clock_eq_ok {scheduler : Scheduler} {id : ThreadId} {clock : Clock} (looked : scheduler.clock id = .ok clock) :
    ∃ thread, scheduler.thread? id = some thread ∧ thread.clock = clock := by
  cases found : scheduler.thread? id with
  | none =>
    simp only [Scheduler.clock, Scheduler.thread, found] at looked
    cases looked
  | some thread =>
    rw [clock_of_found found] at looked
    cases looked
    exact ⟨thread, rfl, rfl⟩

section modify
variable (scheduler : Scheduler) (id other : ThreadId) (change : Thread → Thread)

theorem thread?_modifyThread :
    (scheduler.modifyThread id change).thread? other =
      if id = other then (scheduler.thread? other).map change else scheduler.thread? other := by
  simp only [thread?, modifyThread, Array.getElem?_modify]
  by_cases same : id = other
  · simp [same]
  · have different : id.index ≠ other.index := mt ThreadId.index_injective same
    simp [same, different]

@[simp] theorem size_modifyThread :
    (scheduler.modifyThread id change).threads.size = scheduler.threads.size := by
  simp [modifyThread]

theorem shape_modifyThread (kept : ∀ thread, (change thread).id = thread.id ∧
      (change thread).clock.frequency = thread.clock.frequency) :
    (scheduler.modifyThread id change).shape = scheduler.shape := by
  apply List.ext_getElem?
  intro position
  simp only [shape, modifyThread, List.getElem?_map, Array.getElem?_toList, Array.getElem?_modify]
  split
  · cases scheduler.threads[position]? <;> simp [kept]
  · rfl

end modify

theorem Indexed.of_shape {first second : Scheduler} (indexed : first.Indexed) (same : second.shape = first.shape) :
    second.Indexed := by
  intro position thread found
  have named : second.shape[position]? = some (thread.id, thread.clock.frequency) := by
    simp [shape, found]
  rw [same] at named
  simp only [shape, List.getElem?_map, Array.getElem?_toList, Option.map_eq_some_iff, Prod.mk.injEq] at named
  obtain ⟨original, placed, same, _⟩ := named
  exact same ▸ indexed position original placed

theorem size_of_shape {first second : Scheduler} (same : second.shape = first.shape) :
    second.threads.size = first.threads.size := by
  simpa [shape] using congrArg List.length same

/-- A thread passes its synchronization point instead of stopping there. -/
def Passing (scheduler : Scheduler) (id : ThreadId) (thread : Thread) : Prop :=
  thread.state = .released ∨ scheduler.mode = .run ∨ id ≠ .cpu ∧ thread.clock.value.toInt < 0

/-- The scheduler after a thread passed its synchronization point. -/
def passed (scheduler : Scheduler) (id : ThreadId) : Scheduler :=
  scheduler.modifyThread id fun thread => { thread with state := .running }

/-- The scheduler after a thread stopped at its synchronization point. -/
def stopped (scheduler : Scheduler) (id : ThreadId) : Scheduler :=
  { scheduler.modifyThread id Thread.park with
    desynchronized := false
    transfer := some (.leave (if scheduler.desynchronized then .desynchronized else .synchronized)) }

theorem request_eq_ok {scheduler later : Scheduler} {transfer : Transfer} :
    scheduler.request transfer = .ok later ↔
      scheduler.entered = true ∧ scheduler.transfer = none ∧ later = { scheduler with transfer := some transfer } := by
  simp only [request]
  cases scheduler.entered <;> cases scheduler.transfer <;> simp [eq_comm]

theorem leave_eq_ok {scheduler later : Scheduler} {event : Event} :
    scheduler.leave event = .ok later ↔
      scheduler.entered = true ∧ scheduler.transfer = none ∧
        later = { scheduler with transfer := some (.leave event) } := request_eq_ok

theorem resume_eq_ok {scheduler later : Scheduler} {target : ThreadId} :
    scheduler.resume target = .ok later ↔
      scheduler.entered = true ∧ scheduler.transfer = none ∧ target.index < scheduler.threads.size ∧
        later = { scheduler with
          transfer := some (.resume target)
          desynchronized := scheduler.desynchronized || scheduler.synchronizing } := by
  constructor
  · intro called
    obtain ⟨requested, asked, rest⟩ := Except.bind_eq_ok called
    obtain ⟨entered, free, rfl⟩ := request_eq_ok.mp asked
    by_cases outside : scheduler.threads.size ≤ target.index
    · rw [if_pos outside] at rest
      cases rest
    · rw [if_neg outside] at rest
      cases rest
      exact ⟨entered, free, by omega, rfl⟩
  · rintro ⟨entered, free, inside, rfl⟩
    have asked : scheduler.request (.resume target) = .ok { scheduler with transfer := some (.resume target) } :=
      request_eq_ok.mpr ⟨entered, free, rfl⟩
    simp only [resume, asked, bind, Except.bind]
    rw [if_neg (by simpa using inside)]
    rfl

theorem synchronizePoint_eq {scheduler : Scheduler} {id : ThreadId} {thread : Thread}
    (executing : scheduler.executing id = true) (found : scheduler.thread? id = some thread) :
    scheduler.synchronizePoint id =
      if thread.state = .released ∨ scheduler.mode = .run ∨ (id != .cpu && !thread.clock.ahead) then
        .ok (true, scheduler.passed id)
      else do
        let event := if scheduler.desynchronized then Event.desynchronized else .synchronized
        return (false, ← (scheduler.modifyThread id Thread.park).clearDesynchronized.leave event) := by
  simp only [synchronizePoint, executing, Scheduler.thread, found, bind, Except.bind]
  simp only [Bool.not_true, Bool.false_eq_true, if_false]
  rfl

theorem passing_iff {scheduler : Scheduler} {id : ThreadId} {thread : Thread} :
    (thread.state = .released ∨ scheduler.mode = .run ∨ (id != .cpu && !thread.clock.ahead) = true) ↔
      scheduler.Passing id thread := by
  have behind : thread.clock.ahead = false ↔ thread.clock.value.toInt < 0 := by
    rw [← Bool.not_eq_true, Clock.ahead_iff]
    omega
  simp [Passing, behind]

theorem synchronizePoint_eq_ok {scheduler later : Scheduler} {id : ThreadId} {passes : Bool} :
    scheduler.synchronizePoint id = .ok (passes, later) ↔
      scheduler.executing id = true ∧ ∃ thread, scheduler.thread? id = some thread ∧
        (passes = true ∧ scheduler.Passing id thread ∧ later = scheduler.passed id ∨
          passes = false ∧ ¬ scheduler.Passing id thread ∧ scheduler.transfer = none ∧
            later = scheduler.stopped id) := by
  by_cases executing : scheduler.executing id = true
  · cases found : scheduler.thread? id with
    | none => simp [synchronizePoint, executing, Scheduler.thread, found, bind, Except.bind]
    | some thread =>
      rw [synchronizePoint_eq executing found]
      have entered : scheduler.entered = true := by
        simp only [Scheduler.executing, Bool.and_eq_true] at executing
        exact executing.1
      by_cases passing : scheduler.Passing id thread
      · rw [if_pos (passing_iff.mpr passing)]
        simp [executing, passing, eq_comm]
      · rw [if_neg (mt passing_iff.mp passing)]
        simp only [leave, request, clearDesynchronized, modifyThread, entered]
        cases busy : scheduler.transfer
        · constructor
          · rintro ⟨⟩
            exact ⟨executing, thread, rfl, .inr ⟨rfl, passing, rfl, by simp [stopped, modifyThread, entered]⟩⟩
          · rintro ⟨_, _, ⟨⟩, ⟨_, impossible, _⟩ | ⟨rfl, _, _, rfl⟩⟩
            · exact absurd impossible passing
            · simp [bind, Except.bind, pure, Except.pure, stopped, modifyThread, entered]
        · simp [bind, Except.bind, passing]
  · simp [synchronizePoint, executing, bind, Except.bind, throw, throwThe, MonadExceptOf.throw]

end Scheduler
end MultiClock
