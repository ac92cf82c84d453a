import MultiClock.Proofs.ExactClocks
import MultiClock.Proofs.MachineTurns
import MultiClock.Proofs.SchedulerVisits

/-! The calls of a dependent while chips are steered to their points. Nobody else gets control then, so what a call does to the scheduler
can be written down: it moves the dependent's own clock, or it lets the dependent go on or stop at its point. -/

namespace MultiClock

theorem Array.modify_modify (items : Array α) (index : Nat) (first second : α → α) :
    (items.modify index first).modify index second = items.modify index (second ∘ first) := by
  apply Array.ext_getElem?
  intro position
  simp only [Array.getElem?_modify]
  split
  · rw [Option.map_map]
  · rfl

theorem Clock.toInt_add_ofNat {value : Int64} {distance : Nat} (fits : value.toInt + distance < 0x8000000000000000) :
    (value + .ofNat distance).toInt = value.toInt + distance := by
  have low := value.le_toInt
  rw [Int64.toInt_add, Int64.toInt_ofNat', show Int64.size = 2 ^ 64 from rfl, Int.add_bmod_bmod]
  apply Int.bmod_eq_of_le <;> omega

namespace Scheduler

/-- A dependent's own view while it is steered to its point: it executes, nobody asked for a transfer, and its clock has room for so many
units more. -/
structure Steering (scheduler : Scheduler) (id : ThreadId) (room : Nat) : Prop where
  mode : scheduler.mode = .synchronize
  entered : scheduler.entered = true
  active : scheduler.active = id
  free : scheduler.transfer = none
  dependent : id ≠ .cpu
  found : ∃ thread, scheduler.thread? id = some thread
  reference : ∃ thread, scheduler.thread? .cpu = some thread
  usual : scheduler.rate .cpu ≤ Clock.highFrequency
  space : scheduler.time id + (room * scheduler.rate .cpu : Nat) < 0x8000000000000000

/-- The scheduler after a dependent stepped some units, however they were divided into steps. -/
def advanced (scheduler : Scheduler) (id : ThreadId) (units : Nat) : Scheduler :=
  scheduler.modifyThread id fun thread =>
    { thread with clock := { thread.clock with value := thread.clock.value + .ofNat (units * scheduler.rate .cpu) } }

theorem rate_modifyThread (scheduler : Scheduler) (id other : ThreadId) {change : Thread → Thread}
    (kept : ∀ thread, (change thread).clock.frequency = thread.clock.frequency) :
    (scheduler.modifyThread id change).rate other = scheduler.rate other := by
  rw [rate, thread?_modifyThread, rate]
  split
  · cases scheduler.thread? other <;> simp [kept]
  · rfl

theorem rate_advanced (scheduler : Scheduler) (id other : ThreadId) (units : Nat) :
    (scheduler.advanced id units).rate other = scheduler.rate other :=
  rate_modifyThread _ _ _ fun _ => rfl

theorem advanced_advanced (scheduler : Scheduler) (id : ThreadId) (first second : Nat) :
    (scheduler.advanced id first).advanced id second = scheduler.advanced id (first + second) := by
  rw [advanced, rate_advanced, advanced, modifyThread, modifyThread, Array.modify_modify, advanced, modifyThread]
  have same : ∀ value : Int64, value + .ofNat (first * scheduler.rate .cpu) + .ofNat (second * scheduler.rate .cpu) =
      value + .ofNat ((first + second) * scheduler.rate .cpu) := by
    intro value
    rw [Nat.add_mul, Int64.ofNat_add, Int64.add_assoc]
  simp only [Function.comp_def, same]

/-- A steered dependent goes on at its point: it was given the permission to, or it is behind. -/
def Passes (scheduler : Scheduler) (id : ThreadId) : Prop := scheduler.state? id = some .released ∨ scheduler.time id < 0

namespace Steering
variable {scheduler : Scheduler} {id : ThreadId} {room : Nat}

theorem less (steering : scheduler.Steering id room) {fewer : Nat} (less : fewer ≤ room) : scheduler.Steering id fewer := by
  have bound : fewer * scheduler.rate .cpu ≤ room * scheduler.rate .cpu := Nat.mul_le_mul_right _ less
  have space := steering.space
  exact { steering with space := by omega }

theorem executing (steering : scheduler.Steering id room) : scheduler.executing id = true := by
  simp [Scheduler.executing, steering.entered, steering.active]

theorem synchronizing (steering : scheduler.Steering id room) : scheduler.synchronizing = true := by
  simp [Scheduler.synchronizing, steering.mode]

/-- A change of the dependent's own thread that keeps the clock. -/
theorem modify (steering : scheduler.Steering id room) {change : Thread → Thread} (kept : ∀ thread, (change thread).clock = thread.clock) :
    (scheduler.modifyThread id change).Steering id room := by
  obtain ⟨thread, found⟩ := steering.found
  obtain ⟨reference, base⟩ := steering.reference
  have rate : (scheduler.modifyThread id change).rate .cpu = scheduler.rate .cpu := rate_modifyThread _ _ _ fun thread => by rw [kept]
  refine ⟨steering.mode, steering.entered, steering.active, steering.free, steering.dependent,
    ⟨change thread, ?_⟩, ⟨reference, ?_⟩, ?_, ?_⟩
  · rw [thread?_modifyThread, if_pos rfl, found]
    rfl
  · rw [thread?_modifyThread, if_neg steering.dependent, base]
  · rw [rate]
    exact steering.usual
  · rw [rate, time_modifyThread scheduler id id kept]
    exact steering.space

theorem time_advanced {units : Nat} (steering : scheduler.Steering id units) :
    (scheduler.advanced id units).time id = scheduler.time id + (units * scheduler.rate .cpu : Nat) := by
  obtain ⟨thread, found⟩ := steering.found
  have space := steering.space
  rw [time_eq found] at space ⊢
  rw [time, advanced, thread?_modifyThread, if_pos rfl, found]
  exact Clock.toInt_add_ofNat space

theorem advance (steering : scheduler.Steering id (units + room)) : (scheduler.advanced id units).Steering id room := by
  obtain ⟨thread, found⟩ := steering.found
  obtain ⟨reference, base⟩ := steering.reference
  have present : ∃ later, (scheduler.advanced id units).thread? id = some later := by
    rw [advanced, thread?_modifyThread, if_pos rfl, found]
    exact ⟨_, rfl⟩
  refine ⟨steering.mode, steering.entered, steering.active, steering.free, steering.dependent, present, ⟨reference, ?_⟩, ?_, ?_⟩
  · rw [advanced, thread?_modifyThread, if_neg steering.dependent, base]
  · rw [rate_advanced]
    exact steering.usual
  · have space := steering.space
    rw [rate_advanced, (steering.less (Nat.le_add_right units room)).time_advanced]
    rw [Nat.add_mul] at space
    omega

/-- A step of the dependent moves its clock. -/
theorem step {units : UInt32} (steering : scheduler.Steering id units.toNat) :
    ∃ clock, scheduler.step id units = .ok (clock, scheduler.advanced id units.toNat) := by
  obtain ⟨thread, found⟩ := steering.found
  obtain ⟨reference, base⟩ := steering.reference
  have space := steering.space
  have rate := rate_eq base
  rw [time_eq found, rate] at space
  have short : units.toNat * reference.clock.frequency.toNat < 0x8000000000000000 :=
    Nat.lt_of_le_of_lt (Clock.scaled_lt (rate ▸ steering.usual)) (by decide)
  obtain ⟨clock, moved, frequency, value⟩ := (thread.clock.advance_fits units reference.clock.frequency).exists_ok
    fun fault overflow => overflow.2 ⟨short, space⟩
  have same : clock = { thread.clock with value := thread.clock.value + .ofNat (units.toNat * scheduler.rate .cpu) } := by
    obtain ⟨_, later⟩ := clock
    cases frequency
    rw [rate, Clock.mk.injEq]
    exact ⟨rfl, Int64.toInt_inj.mp (value.trans (Clock.toInt_add_ofNat space).symm)⟩
  have arrives : scheduler.modifyThread id (fun thread => { thread with clock }) = scheduler.advanced id units.toNat :=
    modifyThread_congr found (by rw [same])
  refine ⟨clock.value, ?_⟩
  simp only [Scheduler.step, if_neg steering.dependent, clock_of_found base, clock_of_found found, moved, bind, Except.bind, arrives]
  rfl

theorem passing_iff (steering : scheduler.Steering id room) {thread : Thread} (found : scheduler.thread? id = some thread) :
    scheduler.Passing id thread ↔ scheduler.Passes id := by
  simp [Passing, Passes, steering.mode, steering.dependent, state?_eq found, time_eq found]

theorem point_passes (steering : scheduler.Steering id room) (passes : scheduler.Passes id) :
    scheduler.synchronizePoint id = .ok (true, scheduler.passed id) := by
  obtain ⟨thread, found⟩ := steering.found
  exact synchronizePoint_eq_ok.mpr ⟨steering.executing, thread, found, .inl ⟨rfl, (steering.passing_iff found).mpr passes, rfl⟩⟩

theorem point_stops (steering : scheduler.Steering id room) (stays : ¬ scheduler.Passes id) :
    scheduler.synchronizePoint id = .ok (false, scheduler.stopped id) := by
  obtain ⟨thread, found⟩ := steering.found
  exact synchronizePoint_eq_ok.mpr
    ⟨steering.executing, thread, found, .inr ⟨rfl, mt (steering.passing_iff found).mp stays, steering.free, rfl⟩⟩

theorem passed (steering : scheduler.Steering id room) : (scheduler.passed id).Steering id room := steering.modify fun _ => rfl

end Steering
end Scheduler

namespace Context
variable (bus : Bus) {scheduler : Scheduler} {id : ThreadId} (notices : List Notice) {room : Nat}

theorem step_steered (units : UInt32) (steering : scheduler.Steering id units.toNat) :
    ∃ notice, step ⟨bus, scheduler, id, notices⟩ units = .ok ⟨bus, scheduler.advanced id units.toNat, id, notice :: notices⟩ := by
  obtain ⟨clock, stepped⟩ := steering.step
  refine ⟨.activity (.step id units clock), ?_⟩
  simp only [step, stepped, bind, Except.bind]
  rfl

theorem point_passes (steering : scheduler.Steering id room) (passes : scheduler.Passes id) :
    synchronizePoint ⟨bus, scheduler, id, notices⟩ = .ok (true, ⟨bus, scheduler.passed id, id, notices⟩) := by
  simp only [synchronizePoint, steering.point_passes passes, bind, Except.bind]
  rfl

theorem point_stops (steering : scheduler.Steering id room) (stays : ¬ scheduler.Passes id) :
    synchronizePoint ⟨bus, scheduler, id, notices⟩ = .ok (false, ⟨bus, scheduler.stopped id, id, notices⟩) := by
  simp only [synchronizePoint, steering.point_stops stays, bind, Except.bind]
  rfl

/-- A steered dependent does not hand control to the reference, however far ahead it is. -/
theorem synchronizeCpu_steered (steering : scheduler.Steering id room) :
    synchronizeCpu ⟨bus, scheduler, id, notices⟩ = .ok (false, ⟨bus, scheduler, id, notices⟩) := by
  have quiet : synchronizing ⟨bus, scheduler, id, notices⟩ = true := steering.synchronizing
  simp only [synchronizeCpu, if_neg steering.dependent, quiet, if_true]
  rfl

theorem synchronizeAhead_steered (steering : scheduler.Steering id room) (cycles : UInt32) :
    synchronizeAhead ⟨bus, scheduler, id, notices⟩ cycles = .ok (false, ⟨bus, scheduler, id, notices⟩) := by
  obtain ⟨reference, base⟩ := steering.reference
  have quiet : synchronizing ⟨bus, scheduler, id, notices⟩ = true := steering.synchronizing
  simp only [synchronizeAhead, if_neg steering.dependent, Scheduler.clock_of_found base, quiet, if_true, bind, Except.bind]
  rfl

end Context
end MultiClock
