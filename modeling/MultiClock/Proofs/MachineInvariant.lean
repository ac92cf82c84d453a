import MultiClock.Proofs.ActionEffects
import MultiClock.Proofs.BoardTurns

/-! What holds of a machine at every moment, also in the middle of a run. The state of a thread lives in
the scheduler and the work of its chip on the board; a thread that is not running has a chip without
work, and every slice, transfer and frame keeps it so. -/

namespace MultiClock

namespace Board

/-- The chip of this thread has no work in flight. -/
def Rested (board : Board) : ThreadId → Prop
  | .cpu => board.cpu.continuation = .idle
  | id => board.workload id = .idle

theorem Rested.workload {board : Board} {id : ThreadId} (rested : board.Rested id) : board.workload id = .idle := by
  cases id with
  | cpu => rfl
  | smp | ppu | coprocessor => exact rested

theorem rested_iff {board : Board} {id : ThreadId} (dependent : id ≠ .cpu) : board.Rested id ↔ board.workload id = .idle := by
  cases id with
  | cpu => exact absurd rfl dependent
  | smp | ppu | coprocessor => rfl

/-- A chip that has just stopped or kept its work while another one acted is as rested as before. -/
theorem Turns.rested_other {scheduler : Scheduler} {before after : Board} {action : Action} {id other : ThreadId}
    (turns : Turns scheduler before after action id) (different : other ≠ id) (rested : before.Rested other) :
    after.Rested other := by
  cases turns with
  | reference _ _ others =>
    cases other with
    | cpu => exact absurd rfl different
    | smp | ppu | coprocessor => exact (others _).trans rested
  | dependent _ _ cpu others =>
    cases other with
    | cpu => exact (congrArg Cpu.continuation cpu).trans rested
    | smp | ppu | coprocessor => exact (others _ different).trans rested
  | absent _ _ same => rwa [same]

/-- A chip that stops is without work, and one without work can only stop at its point or go on there. -/
theorem Turns.rested_self {scheduler : Scheduler} {before after : Board} {action : Action} {id : ThreadId}
    (turns : Turns scheduler before after action id) (rested : action.state? = none → before.Rested id)
    (stays : action.state? ≠ some .running) : after.Rested id := by
  cases turns with
  | reference moves _ _ =>
    cases moves with
    | stop idle same => exact (congrArg Cpu.continuation same).trans idle
    | pass => exact absurd rfl stays
    | step _ _ _ busy | complete _ _ _ busy | ask _ _ _ busy | call _ _ _ _ _ busy | caughtUp _ busy =>
      rw [show before.cpu.continuation = .idle from rested rfl] at busy
      cases busy
  | dependent dependent advances _ _ =>
    rw [rested_iff dependent] at rested ⊢
    cases advances with
    | stop _ after_idle => exact after_idle
    | pass | passStep => exact absurd rfl stays
    | rest shorter | step shorter | resume _ _ shorter | frame shorter =>
      rw [rested rfl] at shorter
      exact absurd shorter (Nat.not_lt_zero _)
  | absent _ rests same =>
    rw [same]
    exact rested (by rw [rests]; rfl)

end Board

namespace Machine

/-- Every thread that is not running belongs to a chip without work. -/
def Suspended (scheduler : Scheduler) (board : Board) : Prop :=
  ∀ id state, scheduler.state? id = some state → state ≠ .running → board.Rested id

/-- What holds of a machine of these coprocessors at every moment. -/
structure Sound (loads : Loads) (kinds : List CoprocessorKind) (machine : Machine) : Prop where
  wired : machine.scheduler.shape = wiring kinds
  reference : machine.scheduler.time .cpu = 0
  fits : machine.board.Fits loads kinds
  free : machine.scheduler.entered = false → machine.scheduler.transfer = none
  suspended : loads = .own → Suspended machine.scheduler machine.board

variable {loads : Loads} {kinds : List CoprocessorKind}

/-- A change of the scheduler that leaves the threads alone. -/
theorem Sound.withScheduler {machine : Machine} (sound : machine.Sound loads kinds) {scheduler : Scheduler}
    (threads : scheduler.threads = machine.scheduler.threads)
    (free : scheduler.entered = false → scheduler.transfer = none) : Sound loads kinds ⟨scheduler, machine.board⟩ := by
  have views : ∀ id, scheduler.thread? id = machine.scheduler.thread? id := fun id => by
    rw [Scheduler.thread?, threads, Scheduler.thread?]
  refine ⟨?_, ?_, sound.fits, free, fun own id state found => ?_⟩
  · rw [Scheduler.shape, threads]
    exact sound.wired
  · rw [Scheduler.time, views]
    exact sound.reference
  · rw [Scheduler.state?, views] at found
    exact sound.suspended own id state found

theorem Sound.transferTo {machine : Machine} (sound : machine.Sound loads kinds) (target : ThreadId) :
    Sound loads kinds ⟨machine.scheduler.transferTo target, machine.board⟩ := by
  have release : ∀ thread : Thread, thread.release.id = thread.id ∧
      thread.release.clock.frequency = thread.clock.frequency := by
    intro thread
    simp only [Thread.release]
    split <;> exact ⟨rfl, rfl⟩
  refine ⟨?_, ?_, sound.fits, fun _ => rfl, fun own id state found stays => ?_⟩
  · exact (Scheduler.shape_modifyThread machine.scheduler target Thread.release release).trans sound.wired
  · refine (Scheduler.time_modifyThread machine.scheduler target .cpu fun thread => ?_).trans sound.reference
    simp only [Thread.release]
    split <;> rfl
  · have found := (Scheduler.state?_modifyThread machine.scheduler target id Thread.release).symm.trans found
    split at found
    next =>
      obtain ⟨thread, present, rfl⟩ := Option.map_eq_some_iff.mp found
      refine sound.suspended own id thread.state (Scheduler.state?_eq present) fun running => stays ?_
      simp [Thread.release, running]
    next => exact sound.suspended own id state found stays

theorem Sound.slice (few : kinds.length ≤ Cartridge.maxCoprocessors) {machine : Machine} (sound : machine.Sound loads kinds)
    {id : ThreadId} (inside : machine.scheduler.entered = true) {board : Board} {scheduler : Scheduler}
    {notices : List Notice} (sliced : ChipSet.slice id machine.board machine.scheduler = .ok (board, scheduler, notices)) :
    Sound loads kinds ⟨scheduler, board⟩ := by
  obtain ⟨action, does, _, _, turns, fits⟩ := (Board.slice_comes loads kinds machine.board machine.scheduler id).of_ok sliced
  have indexed := Scheduler.indexed_of_wiring few sound.wired
  have kept := does.kept indexed
  refine ⟨kept.shape.trans sound.wired, (does.time_reference indexed).trans sound.reference, fits sound.fits, ?_, ?_⟩
  · intro outside
    rw [kept.entered, inside] at outside
    cases outside
  · intro own other state found stays
    rw [does.state? indexed] at found
    split at found
    next same =>
      subst same
      refine turns.rested_self (fun unchanged => ?_) fun running => ?_
      · rw [unchanged] at found
        exact sound.suspended own id state found stays
      · rw [running] at found
        exact stays (Option.some.inj found).symm
    next different =>
      exact turns.rested_other (Ne.symm different) (sound.suspended own other state found stays)

theorem Sound.completeFrame [Host ω] {machine : Machine} (sound : machine.Sound loads kinds) (cheats : List Cheat)
    (host : ω) : Sound loads kinds ⟨machine.scheduler, (machine.board.completeFrame cheats host).1⟩ := by
  obtain ⟨scheduler, bus, cpu, smp, ppu, coprocessors, frame⟩ := machine
  have latches : ∀ bus : Bus, (cheats.foldl (fun bus cheat => cheat.apply bus) bus).coprocessors = bus.coprocessors := by
    induction cheats with
    | nil => exact fun _ => rfl
    | cons cheat rest ih =>
      intro bus
      rw [List.foldl_cons, ih, Cheat.apply]
      split <;> rfl
  obtain ⟨wired, reference, fits, free, suspended⟩ := sound
  refine ⟨wired, reference, ?_, free, fun own id state found stays => ?_⟩
  · refine ⟨fits.cpu, ⟨fits.smp.elapsed, Nat.zero_le _⟩, fits.ppu, ?_, fits.chips, fits.coprocessors⟩
    exact (congrArg Array.size (latches bus)).trans fits.latches
  · have rested := suspended own id state found stays
    cases id <;> exact rested

/-- The states that a machine passes through while its host runs it or drives it to a save: every call
of the host to the scheduler, every slice, every transfer of control, and the work at a frame. -/
inductive Through (start : Machine) : Machine → Prop
  | here : Through start start
  | mode {now : Machine} {mode : Scheduler.Mode} {scheduler : Scheduler} (through : Through start now)
      (set : now.scheduler.setMode mode = .ok scheduler) : Through start ⟨scheduler, now.board⟩
  | active {now : Machine} {id : ThreadId} {scheduler : Scheduler} (through : Through start now)
      (set : now.scheduler.setActive id = .ok scheduler) : Through start ⟨scheduler, now.board⟩
  | clear {now : Machine} (through : Through start now) : Through start ⟨now.scheduler.clearDesynchronized, now.board⟩
  | enter {now : Machine} (through : Through start now) (outside : now.scheduler.entered = false) :
      Through start ⟨{ now.scheduler.transferTo now.scheduler.active with entered := true }, now.board⟩
  | slice {now : Machine} {board : Board} {scheduler : Scheduler} {notices : List Notice} (through : Through start now)
      (inside : now.scheduler.entered = true)
      (sliced : ChipSet.slice now.scheduler.active now.board now.scheduler = .ok (board, scheduler, notices)) :
      Through start ⟨scheduler, board⟩
  | resume {now : Machine} {target : ThreadId} (through : Through start now)
      (asked : now.scheduler.transfer = some (.resume target)) :
      Through start ⟨now.scheduler.transferTo target, now.board⟩
  | leave {now : Machine} {event : Event} (through : Through start now)
      (asked : now.scheduler.transfer = some (.leave event)) :
      Through start ⟨{ now.scheduler with event, transfer := none, entered := false }, now.board⟩
  | frame {ω : Type} [Host ω] {now : Machine} (through : Through start now) (cheats : List Cheat) (host : ω) :
      Through start ⟨now.scheduler, (now.board.completeFrame cheats host).1⟩

theorem Sound.through (few : kinds.length ≤ Cartridge.maxCoprocessors) {start now : Machine}
    (through : Through start now) (sound : start.Sound loads kinds) : now.Sound loads kinds := by
  induction through with
  | here => exact sound
  | mode _ set ih =>
    simp only [Scheduler.setMode] at set
    split at set
    next => cases set
    next =>
      cases set
      exact ih.withScheduler rfl ih.free
  | active _ set ih =>
    simp only [Scheduler.setActive] at set
    split at set
    next => cases set
    next =>
      split at set
      next => cases set
      next =>
        cases set
        exact ih.withScheduler rfl ih.free
  | clear _ ih => exact ih.withScheduler rfl ih.free
  | enter _ _ ih => exact (ih.transferTo _).withScheduler rfl fun _ => rfl
  | slice _ inside sliced ih => exact ih.slice few inside sliced
  | resume _ _ ih => exact ih.transferTo _
  | leave _ _ ih => exact ih.withScheduler rfl fun _ => rfl
  | frame _ cheats host ih => exact ih.completeFrame cheats host

end Machine
end MultiClock
