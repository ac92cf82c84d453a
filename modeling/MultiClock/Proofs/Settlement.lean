import MultiClock.Proofs.BoardVisits
import MultiClock.Proofs.DriveSoundness
import MultiClock.Proofs.PassingThrough

/-! What a machine is after it was driven to a save. A thread that is not running has a chip without work,
so once every thread is settled, no chip has anything in flight. -/

namespace MultiClock

variable {loads : Loads} {kinds : List CoprocessorKind}

namespace Board

/-- A chip without work is at its boundary. -/
theorem boundary_of_rested {board : Board} {id : ThreadId} {frequency : UInt32} {boundary : Bool} (rested : board.Rested id)
    (inspected : board.inspect? id = some (frequency, boundary)) : boundary = true := by
  cases id with
  | cpu =>
    cases inspected
    exact beq_iff_eq.mpr rested
  | smp =>
    cases inspected
    exact board.smp.workload_slices.mp (congrArg Workload.slices rested)
  | ppu =>
    cases inspected
    exact board.ppu.workload_slices.mp (congrArg Workload.slices rested)
  | coprocessor index =>
    obtain ⟨chip, found, same⟩ := Option.map_eq_some_iff.mp inspected
    cases same
    exact coprocessor_rested found rested

theorem atBoundary_of_rested {board : Board} (few : board.coprocessors.size ≤ 256) (rested : ∀ id, board.Rested id) :
    board.atBoundary = true := by
  have inspected : ∀ id frequency boundary, board.inspect? id = some (frequency, boundary) → boundary = true :=
    fun id _ _ => boundary_of_rested (rested id)
  simp only [atBoundary, Bool.and_eq_true]
  refine ⟨⟨⟨inspected .cpu _ _ rfl, inspected .smp _ _ rfl⟩, inspected .ppu _ _ rfl⟩, Array.all_eq_true'.mpr fun chip member => ?_⟩
  obtain ⟨position, inside, rfl⟩ := Array.mem_iff_getElem.mp member
  have number : (UInt8.ofNat position).toNat = position := by
    rw [UInt8.toNat_ofNat']
    omega
  refine coprocessor_rested ?_ (rested (.coprocessor (UInt8.ofNat position)))
  rw [number, Array.getElem?_eq_getElem inside]

end Board

namespace Machine

/-- Back with the host, in normal execution. -/
structure Outside (machine : Machine) : Prop where
  entered : machine.scheduler.entered = false
  mode : machine.scheduler.mode = .run

/-- Every thread is parked level with the reference or ahead of it, no chip has work, and the reference is next. -/
structure Settled (machine : Machine) : Prop where
  rested : ∀ id, machine.board.Rested id
  parked : ∀ id state, machine.scheduler.state? id = some state → state = .parked
  active : machine.scheduler.active = .cpu
  clear : machine.scheduler.desynchronized = false
  level : ∀ id, 0 ≤ machine.scheduler.time id

/-- Control is with a thread that exists, and is asked for one that exists. -/
structure Directed (machine : Machine) : Prop where
  active : machine.scheduler.active.index < machine.scheduler.threads.size
  target : ∀ target, machine.scheduler.transfer = some (.resume target) → target.index < machine.scheduler.threads.size

theorem Directed.slice {machine : Machine} (directed : machine.Directed) (indexed : machine.scheduler.Indexed) {board : Board}
    {scheduler : Scheduler} {notices : List Notice}
    (sliced : ChipSet.slice machine.scheduler.active machine.board machine.scheduler = .ok (board, scheduler, notices)) :
    Directed ⟨scheduler, board⟩ := by
  obtain ⟨action, does, _⟩ := (Board.slice_comes .any [] machine.board machine.scheduler machine.scheduler.active).of_ok sliced
  have kept := does.kept indexed
  have size := Scheduler.size_of_shape kept.shape
  refine ⟨?_, fun target asked => ?_⟩
  · rw [kept.active, size]
    exact directed.active
  · rw [size]
    exact (does.target indexed asked).elim (directed.target target) id

/-- Whatever a machine goes through, control stays with threads that exist. -/
theorem Directed.through (few : kinds.length ≤ Cartridge.maxCoprocessors) {start now : Machine} (sound : start.Sound loads kinds)
    (directed : start.Directed) (through : Through start now) : now.Directed := by
  induction through with
  | here => exact directed
  | mode _ set ih =>
    simp only [Scheduler.setMode] at set
    split at set
    next => cases set
    next =>
      cases set
      exact ⟨ih.active, ih.target⟩
  | active _ set ih =>
    simp only [Scheduler.setActive] at set
    split at set
    next => cases set
    next =>
      split at set
      next => cases set
      next inside =>
        cases set
        exact ⟨Nat.lt_of_not_le inside, ih.target⟩
  | clear _ ih => exact ⟨ih.active, ih.target⟩
  | enter _ _ ih => exact ⟨by simpa [Scheduler.transferTo] using ih.active, by simp [Scheduler.transferTo]⟩
  | slice through _ sliced ih => exact ih.slice (Scheduler.indexed_of_wiring few (sound.through few through).wired) sliced
  | resume _ asked ih => exact ⟨by simpa [Scheduler.transferTo] using ih.target _ asked, by simp [Scheduler.transferTo]⟩
  | leave _ _ ih => exact ⟨ih.active, by simp⟩
  | frame _ _ _ ih => exact ⟨ih.active, ih.target⟩

variable [Host ω] {start : Machine}

/-- A quiescent machine has every thread parked, and none is behind the reference. -/
theorem parked_of_quiescent {scheduler : Scheduler} (indexed : scheduler.Indexed) (quiescent : scheduler.quiescent = true)
    {id : ThreadId} {thread : Thread} (found : scheduler.thread? id = some thread) :
    thread.state = .parked ∧ (id = .cpu ∨ 0 ≤ thread.clock.value.toInt) := by
  have settled := Array.all_eq_true'.mp quiescent thread (Array.mem_of_getElem? found)
  simpa [Thread.settled, Thread.parked, indexed.id_eq found, Clock.ahead_iff] using settled

/-- A thread that is not there has no chip, and no chip has no work. -/
theorem Sound.rested_missing {machine : Machine} (sound : machine.Sound loads kinds) {id : ThreadId}
    (missing : machine.scheduler.state? id = none) : machine.board.Rested id := by
  have outside : ¬ id.index < 3 + kinds.length := by
    intro inside
    rw [← Scheduler.size_of_wiring sound.wired] at inside
    obtain ⟨thread, found⟩ := Scheduler.found_of_lt inside
    rw [Scheduler.state?_eq found] at missing
    cases missing
  cases id with
  | cpu | smp | ppu =>
    simp only [ThreadId.index] at outside
    omega
  | coprocessor index =>
    have absent : machine.board.coprocessors[index.toNat]? = none := by
      rw [Array.getElem?_eq_none_iff, sound.fits.chips]
      simp only [ThreadId.index] at outside
      omega
    simp [Board.Rested, Board.workload, absent]

/-- A machine that was driven to a save and came back is settled. -/
theorem runToSave_settles (few : kinds.length ≤ Cartridge.maxCoprocessors) (sound : start.Sound .own kinds)
    (cheats : List Cheat) (budget : Nat) (method : SaveMethod) {host : ω} :
    (Save.runToSave (Board.completeFrame cheats) budget method start.scheduler start.board).Meets (· ≠ .notQuiescent)
      (fun driving _ => Through start ⟨driving.scheduler, driving.chips⟩ ∧ Outside ⟨driving.scheduler, driving.chips⟩ ∧
        Settled ⟨driving.scheduler, driving.chips⟩) host := by
  have indexed := Scheduler.indexed_of_wiring few sound.wired
  have delivers : (Save.runToSave (Board.completeFrame cheats) budget method start.scheduler start.board).Meets _ _ host :=
    Save.runToSave_delivers Board.disciplined (.anything (Board.completeFrame cheats)) method indexed start.board trivial
  refine (delivers.and (runToSave_through few sound cheats budget method)).mono ?_
  rintro driving later ⟨delivered, through⟩
  have last := sound.through few through
  have still := Scheduler.indexed_of_wiring few last.wired
  have parked : ∀ id state, driving.scheduler.state? id = some state → state = .parked := by
    intro id state found
    obtain ⟨thread, present, rfl⟩ := Option.map_eq_some_iff.mp found
    exact (parked_of_quiescent still delivered.quiescent present).1
  refine ⟨through, ⟨delivered.outside, delivered.mode⟩, ⟨fun id => ?_, parked, delivered.active, delivered.clear, fun id => ?_⟩⟩
  · cases found : driving.scheduler.state? id with
    | some state =>
      refine last.suspended rfl id state found ?_
      rw [parked id state found]
      decide
    | none => exact last.rested_missing found
  · cases found : driving.scheduler.thread? id with
    | none =>
      change 0 ≤ driving.scheduler.time id
      simp [Scheduler.time, found]
    | some thread =>
      change 0 ≤ driving.scheduler.time id
      rcases (parked_of_quiescent still delivered.quiescent found).2 with rfl | ahead
      · exact Int.le_of_eq last.reference.symm
      · rwa [Scheduler.time_eq found]

end Machine
end MultiClock
