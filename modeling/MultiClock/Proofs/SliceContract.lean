import MultiClock.Proofs.SchedulerSteps

/-! What a well-behaved slice may ask of its scheduler, for chips of any kind, and what a scheduler
can look like when such a slice ends. -/

namespace MultiClock.Scheduler

/-- The calls of one slice of a thread, from the scheduler before it to the scheduler after it. A
slice works on its own thread, leaves for frames only, and makes no call once it stopped at its
synchronization point. That it asks for one transfer at most is the scheduler's own check. -/
inductive Calls (id : ThreadId) : Scheduler → Scheduler → Prop
  | done (scheduler : Scheduler) : Calls id scheduler scheduler
  | step {scheduler middle later : Scheduler} {units : UInt32} {clock : Int64}
      (stepped : scheduler.step id units = .ok (clock, middle)) (rest : Calls id middle later) : Calls id scheduler later
  | pass {scheduler middle later : Scheduler}
      (passed : scheduler.synchronizePoint id = .ok (true, middle)) (rest : Calls id middle later) :
      Calls id scheduler later
  | stop {scheduler later : Scheduler}
      (stopped : scheduler.synchronizePoint id = .ok (false, later)) : Calls id scheduler later
  | resume {scheduler middle later : Scheduler} {target : ThreadId}
      (resumed : scheduler.resume target = .ok middle) (rest : Calls id middle later) : Calls id scheduler later
  | frame {scheduler middle later : Scheduler}
      (left : scheduler.leave .frame = .ok middle) (rest : Calls id middle later) : Calls id scheduler later

/-- What a slice of a thread leaves alone. Only the reference moves clocks of others. -/
structure Kept (id : ThreadId) (scheduler later : Scheduler) : Prop where
  mode : later.mode = scheduler.mode
  active : later.active = scheduler.active
  entered : later.entered = scheduler.entered
  shape : later.shape = scheduler.shape
  others : id ≠ .cpu → ∀ other, other ≠ id → later.thread? other = scheduler.thread? other

namespace Kept
variable {id : ThreadId} {first second third : Scheduler}

theorem refl (scheduler : Scheduler) : Kept id scheduler scheduler := ⟨rfl, rfl, rfl, rfl, fun _ _ _ => rfl⟩

theorem trans (earlier : Kept id first second) (later : Kept id second third) : Kept id first third where
  mode := later.mode.trans earlier.mode
  active := later.active.trans earlier.active
  entered := later.entered.trans earlier.entered
  shape := later.shape.trans earlier.shape
  others dependent other different :=
    (later.others dependent other different).trans (earlier.others dependent other different)

theorem step {units : UInt32} {clock : Int64} (indexed : first.Indexed)
    (stepped : first.step id units = .ok (clock, second)) : Kept id first second := by
  have moved := step_eq_ok indexed stepped
  refine ⟨?_, ?_, ?_, moved.shape, moved.others⟩
  all_goals rw [moved.threads]

theorem modify (change : Thread → Thread) (kept : ∀ thread, (change thread).id = thread.id ∧
      (change thread).clock.frequency = thread.clock.frequency) : Kept id first (first.modifyThread id change) := by
  refine ⟨rfl, rfl, rfl, shape_modifyThread _ _ _ kept, ?_⟩
  intro _ other different
  rw [thread?_modifyThread, if_neg (Ne.symm different)]

theorem point {passes : Bool} (called : first.synchronizePoint id = .ok (passes, second)) : Kept id first second := by
  obtain ⟨_, thread, _, ⟨_, _, rfl⟩ | ⟨_, _, _, rfl⟩⟩ := synchronizePoint_eq_ok.mp called
  · exact modify _ fun _ => ⟨rfl, rfl⟩
  · have parked : Kept id first (first.modifyThread id Thread.park) := modify _ fun _ => ⟨rfl, rfl⟩
    exact ⟨parked.mode, parked.active, parked.entered, parked.shape, parked.others⟩

theorem resume {target : ThreadId} (called : first.resume target = .ok second) : Kept id first second := by
  obtain ⟨_, _, _, rfl⟩ := resume_eq_ok.mp called
  exact ⟨rfl, rfl, rfl, rfl, fun _ _ _ => rfl⟩

theorem leave {event : Event} (called : first.leave event = .ok second) : Kept id first second := by
  obtain ⟨_, _, rfl⟩ := leave_eq_ok.mp called
  exact ⟨rfl, rfl, rfl, rfl, fun _ _ _ => rfl⟩

end Kept

theorem Calls.kept {id : ThreadId} {scheduler later : Scheduler} (calls : Calls id scheduler later)
    (indexed : scheduler.Indexed) : Kept id scheduler later := by
  induction calls with
  | done => exact .refl _
  | step stepped _ ih =>
    have first := Kept.step indexed stepped
    exact first.trans (ih (indexed.of_shape first.shape))
  | pass passed _ ih =>
    have first : Kept id _ _ := Kept.point passed
    exact first.trans (ih (indexed.of_shape first.shape))
  | stop stopped => exact Kept.point stopped
  | resume resumed _ ih =>
    have first : Kept id _ _ := Kept.resume resumed
    exact first.trans (ih (indexed.of_shape first.shape))
  | frame left _ ih =>
    have first : Kept id _ _ := Kept.leave left
    exact first.trans (ih (indexed.of_shape first.shape))

/-- After its request a slice can neither take it back nor stop at its point. -/
theorem Calls.busy {id : ThreadId} {scheduler later : Scheduler} {transfer : Transfer}
    (calls : Calls id scheduler later) (indexed : scheduler.Indexed) (asked : scheduler.transfer = some transfer) :
    later.transfer = some transfer ∧ later.desynchronized = scheduler.desynchronized := by
  -- Once a transfer is asked for, every further call that asks for one breaks off.
  induction calls with
  | done => exact ⟨asked, rfl⟩
  | step stepped _ ih =>
    have moved := step_eq_ok indexed stepped
    have same : _ ∧ _ := ih (indexed.of_shape moved.shape) (by rw [moved.threads]; exact asked)
    exact ⟨same.1, same.2.trans (by rw [moved.threads])⟩
  | pass passed _ ih =>
    obtain ⟨_, _, _, ⟨_, _, rfl⟩ | ⟨impossible, _⟩⟩ := synchronizePoint_eq_ok.mp passed
    · exact ih (indexed.of_shape (Kept.point passed).shape) asked
    · cases impossible
  | stop stopped =>
    obtain ⟨_, _, _, ⟨impossible, _⟩ | ⟨_, _, free, _⟩⟩ := synchronizePoint_eq_ok.mp stopped
    · cases impossible
    · rw [free] at asked
      cases asked
  | resume resumed _ _ =>
    obtain ⟨_, free, _⟩ := resume_eq_ok.mp resumed
    rw [free] at asked
    cases asked
  | frame left _ _ =>
    obtain ⟨_, free, _⟩ := leave_eq_ok.mp left
    rw [free] at asked
    cases asked

/-- How a slice ended: with no request, with the request to resume another thread, with a frame, or
at its synchronization point. -/
inductive Ending (id : ThreadId) (scheduler later : Scheduler) : Prop
  | stays (free : later.transfer = none) (same : later.desynchronized = scheduler.desynchronized)
  | resumes (target : ThreadId) (asked : later.transfer = some (.resume target))
      (disturbed : later.desynchronized = (scheduler.desynchronized || scheduler.synchronizing))
  | frames (asked : later.transfer = some (.leave .frame)) (same : later.desynchronized = scheduler.desynchronized)
  | stops (thread : Thread)
      (asked : later.transfer =
        some (.leave (if scheduler.desynchronized then .desynchronized else .synchronized)))
      (clear : later.desynchronized = false) (found : later.thread? id = some thread) (settled : thread.settled = true)

theorem settled_stopped {scheduler : Scheduler} {id : ThreadId} {thread : Thread} (indexed : scheduler.Indexed)
    (found : scheduler.thread? id = some thread) (stays : ¬ scheduler.Passing id thread) :
    ∃ parked : Thread, (scheduler.stopped id).thread? id = some parked ∧ parked.settled = true := by
  refine ⟨thread.park, ?_, ?_⟩
  · change (scheduler.modifyThread id Thread.park).thread? id = _
    rw [thread?_modifyThread, if_pos rfl, found]
    rfl
  · have level : id = .cpu ∨ thread.clock.ahead = true := by
      rw [Clock.ahead_iff]
      simp only [Passing, not_or, not_and] at stays
      by_cases reference : id = .cpu
      · exact .inl reference
      · exact .inr (by have := stays.2.2 reference; omega)
    simpa [Thread.settled, Thread.parked, Thread.park, indexed.id_eq found] using level

/-- An ending counts from any scheduler that agrees on the flag and on the mode. -/
theorem Ending.before {id : ThreadId} {scheduler middle later : Scheduler} (ending : Ending id middle later)
    (flag : middle.desynchronized = scheduler.desynchronized) (mode : middle.mode = scheduler.mode) :
    Ending id scheduler later := by
  have synchronizing : middle.synchronizing = scheduler.synchronizing := by rw [Scheduler.synchronizing, mode]; rfl
  cases ending with
  | stays free same => exact .stays free (same.trans flag)
  | resumes target asked disturbed => exact .resumes target asked (by rw [disturbed, flag, synchronizing])
  | frames asked same => exact .frames asked (same.trans flag)
  | stops thread asked clear found settled => exact .stops thread (by rw [asked, flag]) clear found settled

theorem Calls.ending {id : ThreadId} {scheduler later : Scheduler} (calls : Calls id scheduler later)
    (indexed : scheduler.Indexed) (free : scheduler.transfer = none) : Ending id scheduler later := by
  induction calls with
  | done => exact .stays free rfl
  | step stepped _ ih =>
    have moved := step_eq_ok indexed stepped
    have ending := ih (indexed.of_shape moved.shape) (by rw [moved.threads]; exact free)
    exact ending.before (by rw [moved.threads]) (by rw [moved.threads])
  | pass passed _ ih =>
    obtain ⟨_, _, _, ⟨_, _, rfl⟩ | ⟨impossible, _⟩⟩ := synchronizePoint_eq_ok.mp passed
    · exact (ih (indexed.of_shape (Kept.point passed).shape) free).before rfl rfl
    · cases impossible
  | stop stopped =>
    obtain ⟨_, thread, found, ⟨impossible, _⟩ | ⟨_, stays, _, rfl⟩⟩ := synchronizePoint_eq_ok.mp stopped
    · cases impossible
    · obtain ⟨parked, found, settled⟩ := settled_stopped indexed found stays
      exact .stops parked rfl rfl found settled
  | resume resumed rest _ =>
    obtain ⟨_, _, _, rfl⟩ := resume_eq_ok.mp resumed
    obtain ⟨asked, same⟩ := rest.busy indexed rfl
    exact .resumes _ asked same
  | frame left rest _ =>
    obtain ⟨_, _, rfl⟩ := leave_eq_ok.mp left
    obtain ⟨asked, same⟩ := rest.busy indexed rfl
    exact .frames asked same

end MultiClock.Scheduler
