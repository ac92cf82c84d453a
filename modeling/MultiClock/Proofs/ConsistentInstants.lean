import MultiClock.Proofs.Reachability

/-! A chip that is suspended at its synchronization point, or was given control there and has not passed it
yet, has nothing in flight. That holds at every moment, so a drive to a save that ends well leaves a machine
whose continuations can be left out. -/

namespace MultiClock

variable {loads : Loads} {kinds : List CoprocessorKind}

namespace Machine

/-- Every thread has a chip. -/
theorem Sound.inspected {machine : Machine} (sound : machine.Sound loads kinds) {id : ThreadId} {thread : Thread}
    (found : machine.scheduler.thread? id = some thread) : ∃ inspected, machine.board.inspect? id = some inspected := by
  have inside := Scheduler.lt_of_found found
  rw [Scheduler.size_of_wiring sound.wired] at inside
  cases id with
  | cpu | smp | ppu => exact ⟨_, rfl⟩
  | coprocessor index =>
    have placed : index.toNat < machine.board.coprocessors.size := by
      rw [sound.fits.chips]
      simp only [ThreadId.index] at inside
      omega
    exact ⟨_, by rw [Board.inspect?, Array.getElem?_eq_getElem placed]; rfl⟩

/-- A suspended thread that is not running has a chip at its boundary. -/
theorem Sound.boundary {machine : Machine} (sound : machine.Sound .own kinds) {id : ThreadId} {thread : Thread}
    (found : machine.scheduler.thread? id = some thread) (suspended : thread.state = .parked ∨ thread.state = .released) :
    (machine.board.inspect? id).map Prod.snd = some true := by
  obtain ⟨⟨frequency, boundary⟩, inspected⟩ := sound.inspected found
  have rested : machine.board.Rested id := by
    refine sound.suspended rfl id thread.state (Scheduler.state?_eq found) fun running => ?_
    rcases suspended with state | state <;> rw [running] at state <;> cases state
  rw [inspected, Option.map_some, Board.boundary_of_rested rested inspected]

/-- Every thread is parked, level with the reference or ahead of it, no chip has work, and the reference goes
on next in normal execution. -/
theorem Settled.parked_level {machine : Machine} (settled : machine.Settled) (sound : machine.Sound loads kinds)
    (few : kinds.length ≤ Cartridge.maxCoprocessors) :
    (∀ thread ∈ machine.scheduler.threads, thread.state = .parked ∧ 0 ≤ thread.clock.value.toInt) ∧
      machine.board.atBoundary = true := by
  refine ⟨fun thread member => ?_, Board.atBoundary_of_rested ?_ settled.rested⟩
  · have found := (Scheduler.indexed_of_wiring few sound.wired).found member
    have level := settled.level thread.id
    rw [Scheduler.time_eq found] at level
    exact ⟨settled.parked thread.id thread.state (Scheduler.state?_eq found), level⟩
  · simp only [Cartridge.maxCoprocessors] at few
    rw [sound.fits.chips]
    omega

end Machine

namespace Console

/-- At every moment of a run or a drive, a thread that is not running has a chip with nothing in flight. And
a drive that ends well, by either method, leaves every thread parked, none behind the reference, every chip
at its boundary, and the reference active in normal execution, undisturbed. -/
theorem Reached.consistent {console : Console} (reached : console.Reached .own kinds) :
    (∀ now, Machine.Through console.machine now → ∀ id thread, now.scheduler.thread? id = some thread →
      thread.state = .parked ∨ thread.state = .released → (now.board.inspect? id).map Prod.snd = some true) ∧
    ∀ (ω : Type) [Host ω] (method : SaveMethod) (budget : Nat) (host heard : ω) (driving : Save.Drive Board),
      Save.runToSave (Board.completeFrame console.cheats) budget method console.machine.scheduler console.machine.board host =
        (.ok driving, heard) →
      (∀ thread ∈ driving.scheduler.threads, thread.state = .parked ∧ 0 ≤ thread.clock.value.toInt) ∧
        driving.chips.atBoundary = true ∧ driving.scheduler.mode = .run ∧ driving.scheduler.active = .cpu ∧
        driving.scheduler.desynchronized = false := by
  have steady := reached.steady
  constructor
  · intro now through id thread found suspended
    exact (steady.sound.through steady.few through).boundary found suspended
  · intro ω _ method budget host heard driving returned
    obtain ⟨through, outside, settled⟩ :=
      (Machine.runToSave_settles steady.few steady.sound console.cheats budget method).of_ok returned
    obtain ⟨parked, boundary⟩ := settled.parked_level (steady.sound.through steady.few through) steady.few
    exact ⟨parked, boundary, outside.mode, settled.active, settled.clear⟩

/-- The reference of a console that was just switched on is at its boundary when it is given control. -/
theorem Reached.consistent_switched_on : sample.Reached .own [.multiplier, .rtc] ∧
    ∃ now, Machine.Through sample.machine now ∧ now.scheduler.state? .cpu = some .released ∧
      (now.board.inspect? .cpu).map Prod.snd = some true := by
  have fresh := sample_fresh
  have entered := Machine.Through.here.enter fresh.entered
  obtain ⟨thread, found⟩ : ∃ thread, sample.machine.scheduler.thread? .cpu = some thread :=
    (Scheduler.found_of_wiring fresh.sound.wired).mpr List.mem_cons_self
  have parked : thread.state = .parked := fresh.parked .cpu thread.state (Scheduler.state?_eq found)
  have given : (sample.machine.scheduler.transferTo sample.machine.scheduler.active).thread? .cpu = some thread.release := by
    rw [fresh.active]
    exact (Scheduler.thread?_modifyThread sample.machine.scheduler .cpu .cpu Thread.release).trans (by rw [if_pos rfl, found]; rfl)
  have released : thread.release.state = .released := by rw [Thread.release, if_pos parked]
  refine ⟨sample_reached .own, _, entered, ?_, (Reached.consistent (sample_reached .own)).1 _ entered .cpu _ given (.inr released)⟩
  rw [← released]
  exact Scheduler.state?_eq given

end Console
end MultiClock
