import MultiClock.Proofs.SliceContract

/-! Why a call of a slice can break off. Every check that the scheduler makes is met by the chip that it
executes, so what remains is a clock that leaves its range. -/

namespace MultiClock

/-- What a slice may break off with: never the driver's own check, and nothing but an overflow once the
scheduler is ready for the slice. -/
def Excused (ready calm : Prop) (fault : Fault) : Prop := fault ≠ .notQuiescent ∧ (ready → Overflow calm fault)

namespace Excused
variable {ready readier calm calmer : Prop} {fault : Fault}

theorem overflow (overflow : Overflow calm fault) (still : ready → calmer → calm) : Excused ready calmer fault := by
  obtain ⟨rfl, wild⟩ := overflow
  exact ⟨by simp, fun ready => ⟨rfl, fun calmer => wild (still ready calmer)⟩⟩

theorem unready (other : fault ≠ .notQuiescent) (unready : ¬ ready) : Excused ready calm fault :=
  ⟨other, fun impossible => absurd impossible unready⟩

theorem of_calmer (implies : readier → ready) (still : readier → calmer → calm) :
    ∀ fault, Excused ready calm fault → Excused readier calmer fault :=
  fun _ excused =>
    ⟨excused.1, fun ready => ⟨(excused.2 (implies ready)).1, fun calmer => (excused.2 (implies ready)).2 (still ready calmer)⟩⟩

theorem of_ready (implies : readier → ready) : ∀ fault, Excused ready calm fault → Excused readier calm fault :=
  of_calmer implies fun _ => id

end Excused

theorem Meets.returned {permitted : Fault → Prop} {post : α → Prop} {result : Except Fault α}
    (meets : Meets permitted post result) : Meets permitted (fun value => result = .ok value ∧ post value) result := by
  cases result with
  | ok value => exact ⟨rfl, meets⟩
  | error fault => exact meets

namespace Scheduler

/-- The chip of this thread is executing, and it has not asked for a transfer yet. -/
structure Ready (scheduler : Scheduler) (id : ThreadId) : Prop where
  indexed : scheduler.Indexed
  entered : scheduler.entered = true
  active : scheduler.active = id
  free : scheduler.transfer = none
  present : id.index < scheduler.threads.size
  reference : 0 < scheduler.threads.size

/-- A slice that made no request yet is as ready as before. -/
theorem Ready.kept {scheduler later : Scheduler} {id : ThreadId} (ready : scheduler.Ready id)
    (kept : Kept id scheduler later) (free : later.transfer = none) : later.Ready id where
  indexed := ready.indexed.of_shape kept.shape
  entered := kept.entered.trans ready.entered
  active := kept.active.trans ready.active
  free := free
  present := by rw [size_of_shape kept.shape]; exact ready.present
  reference := by rw [size_of_shape kept.shape]; exact ready.reference

/-- No clock is close to its limits. -/
def Calm (scheduler : Scheduler) : Prop := ∀ thread ∈ scheduler.threads, thread.clock.Calm

theorem Calm.found {scheduler : Scheduler} (calm : scheduler.Calm) {id : ThreadId} {thread : Thread}
    (found : scheduler.thread? id = some thread) : thread.clock.Calm := calm thread (Array.mem_of_getElem? found)

section calls
variable {calm : Prop}

theorem request_meets (scheduler : Scheduler) (transfer : Transfer) :
    Meets (Excused (scheduler.entered = true ∧ scheduler.transfer = none) calm)
      (fun later => scheduler.request transfer = .ok later) (scheduler.request transfer) := by
  unfold request
  split
  next outside => exact .unready (by simp) fun ready => by simp [ready.1] at outside
  next =>
    split
    next busy => exact .unready (by simp) fun ready => by simp [ready.2] at busy
    next => rfl

theorem leave_meets (scheduler : Scheduler) (event : Event) :
    Meets (Excused (scheduler.entered = true ∧ scheduler.transfer = none) calm)
      (fun later => scheduler.leave event = .ok later) (scheduler.leave event) :=
  request_meets scheduler (.leave event)

theorem resume_meets (scheduler : Scheduler) (target : ThreadId) :
    Meets (Excused (scheduler.entered = true ∧ scheduler.transfer = none ∧ target.index < scheduler.threads.size) calm)
      (fun later => scheduler.resume target = .ok later) (scheduler.resume target) := by
  suffices faults : Meets (Excused (scheduler.entered = true ∧ scheduler.transfer = none ∧
      target.index < scheduler.threads.size) calm) (fun _ => True) (scheduler.resume target) from
    faults.returned.mono fun _ => And.left
  refine ((request_meets scheduler (.resume target)).permit (Excused.of_ready ?_)).bind fun requested asked => ?_
  · exact fun ready => ⟨ready.1, ready.2.1⟩
  · obtain ⟨_, _, rfl⟩ := request_eq_ok.mp asked
    split
    next outside => exact .unready (by simp) fun ready => absurd ready.2.2 (Nat.not_lt.mpr outside)
    next => exact .pure trivial

theorem thread_meets (scheduler : Scheduler) (id : ThreadId) :
    Meets (Excused (id.index < scheduler.threads.size) calm) (fun thread => scheduler.thread? id = some thread)
      (scheduler.thread id) := by
  unfold thread
  split
  next thread found => exact found
  next missing =>
    refine .unready (by simp) fun inside => ?_
    obtain ⟨thread, found⟩ := found_of_lt inside
    rw [missing] at found
    cases found

theorem clock_meets (scheduler : Scheduler) (id : ThreadId) :
    Meets (Excused (id.index < scheduler.threads.size) calm)
      (fun clock => ∃ thread, scheduler.thread? id = some thread ∧ thread.clock = clock) (scheduler.clock id) :=
  (thread_meets scheduler id).bind fun thread found => .pure ⟨thread, found, rfl⟩

theorem synchronizePoint_meets (scheduler : Scheduler) (id : ThreadId) :
    Meets (Excused (scheduler.Ready id) calm) (fun result => scheduler.synchronizePoint id = .ok result)
      (scheduler.synchronizePoint id) := by
  suffices faults : Meets (Excused (scheduler.Ready id) calm) (fun _ => True) (scheduler.synchronizePoint id) from
    faults.returned.mono fun _ => And.left
  cases executing : scheduler.executing id with
  | false =>
    simp only [synchronizePoint, executing]
    refine .unready (by simp) fun ready => ?_
    simp [Scheduler.executing, ready.entered, ready.active] at executing
  | true =>
    cases found : scheduler.thread? id with
    | none =>
      simp only [synchronizePoint, executing, Scheduler.thread, found]
      refine .unready (by simp) fun ready => ?_
      obtain ⟨thread, present⟩ := found_of_lt ready.present
      rw [found] at present
      cases present
    | some thread =>
      rw [synchronizePoint_eq executing found]
      split
      next => exact .pure trivial
      next =>
        refine ((leave_meets _ _).permit (Excused.of_ready fun ready => ?_)).bind fun _ _ => .pure trivial
        exact ⟨ready.entered, ready.free⟩

end calls

theorem step_returns (scheduler : Scheduler) (id : ThreadId) (units : UInt32) :
    Meets (Excused (scheduler.Ready id) scheduler.Calm) (fun result => scheduler.step id units = .ok result)
      (scheduler.step id units) := by
  suffices faults : Meets (Excused (scheduler.Ready id) scheduler.Calm) (fun _ => True) (scheduler.step id units) from
    faults.returned.mono fun _ => And.left
  unfold step
  split
  next =>
    exact ((rewindDependents_meets units scheduler.threads).permit fun _ overflow =>
      .overflow overflow fun _ calm => calm).bind fun _ _ => .pure trivial
  next =>
    refine ((clock_meets scheduler .cpu).permit (Excused.of_ready Ready.reference)).bind fun base found => ?_
    refine ((clock_meets scheduler id).permit (Excused.of_ready Ready.present)).bind fun own mine => ?_
    obtain ⟨reference, atCpu, rfl⟩ := found
    obtain ⟨thread, present, rfl⟩ := mine
    exact ((thread.clock.advance_meets units reference.clock.frequency).permit fun _ overflow =>
      .overflow overflow fun _ calm => ⟨(calm.found atCpu).1, calm.found present⟩).bind fun _ _ => .pure trivial

end Scheduler
end MultiClock
