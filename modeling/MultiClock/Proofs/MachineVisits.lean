import MultiClock.Proofs.BoardVisits
import MultiClock.Proofs.SchedulerVisits

/-! The visitor of a machine. In any use it keeps a machine sound and leaves every clock near and every register
within what a snapshot may hold, and all machines of the same coprocessors have snapshots of the same size. A reader
that starts from such a machine ends up with the writer's machine. -/

namespace MultiClock

open Visit

variable {mode : Serializer.Mode} {loads : Loads} {kinds : List CoprocessorKind}

/-- The threads of a machine with so many coprocessors. -/
def threadsOf (count : Nat) : List ThreadId :=
  .cpu :: .smp :: .ppu :: (List.range count).map fun i => .coprocessor (UInt8.ofNat i)

theorem Board.threads_eq {board : Board} (fits : board.Fits loads kinds) : board.threads = threadsOf kinds.length := by
  rw [Board.threads, threadsOf, fits.chips]

theorem mem_threadsOf {count : Nat} {id : ThreadId} : id ∈ threadsOf count ↔ id.index < 3 + count := by
  cases id with
  | cpu | smp | ppu =>
    simp only [threadsOf, List.mem_cons, reduceCtorEq, true_or, or_true, true_iff, ThreadId.index]
    omega
  | coprocessor index =>
    simp only [threadsOf, List.mem_cons, reduceCtorEq, List.mem_map, List.mem_range, false_or, ThreadId.index,
      ThreadId.coprocessor.injEq, Nat.add_lt_add_iff_left]
    constructor
    · rintro ⟨position, inside, rfl⟩
      rw [UInt8.toNat_ofNat']
      omega
    · exact fun inside => ⟨index.toNat, inside, UInt8.ofNat_toNat⟩

namespace Scheduler

theorem found_of_wiring {scheduler : Scheduler} (wired : scheduler.shape = wiring kinds) {id : ThreadId} :
    (∃ thread, scheduler.thread? id = some thread) ↔ id ∈ threadsOf kinds.length := by
  rw [mem_threadsOf, ← size_of_wiring wired]
  refine ⟨?_, found_of_lt⟩
  rintro ⟨_, found⟩
  exact lt_of_found found

end Scheduler

namespace Machine

/-- What any visit of a machine keeps, and what it keeps as long as it does not load. -/
structure Renewed (mode : Serializer.Mode) (loads : Loads) (kinds : List CoprocessorKind) (before after : Machine) : Prop where
  control : after.scheduler.mode = before.scheduler.mode
  entered : after.scheduler.entered = before.scheduler.entered
  transfer : after.scheduler.transfer = before.scheduler.transfer
  wired : after.scheduler.shape = wiring kinds
  reference : after.scheduler.time .cpu = 0
  fits : after.board.Fits loads kinds
  states : mode ≠ .load → ∀ id, after.scheduler.state? id = before.scheduler.state? id
  times : mode ≠ .load → ∀ id, 0 ≤ before.scheduler.time id → 0 ≤ after.scheduler.time id
  rested : mode ≠ .load → ∀ id, before.board.Rested id → after.board.Rested id

theorem Sound.renewed (permitted : Permitted loads mode) {before after : Machine} (sound : before.Sound loads kinds)
    (renewed : Renewed mode loads kinds before after) : after.Sound loads kinds := by
  refine ⟨renewed.wired, renewed.reference, renewed.fits, fun outside => ?_, fun own id state found stays => ?_⟩
  · rw [renewed.transfer]
    exact sound.free (renewed.entered ▸ outside)
  · rw [renewed.states (permitted own)] at found
    exact renewed.rested (permitted own) id (sound.suspended own id state found stays)

/-- The clock of a thread is one that a snapshot may hold. -/
def Near (machine : Machine) (id : ThreadId) : Prop :=
  ∀ thread, machine.scheduler.thread? id = some thread → thread.Near

/-- The clock of a thread and the registers of its chip are ones that a snapshot may hold. -/
def InRange (machine : Machine) (id : ThreadId) : Prop := machine.Near id ∧ machine.board.Ranged id

/-- A visit of one thread after the other has not touched what goes with suspended chips. -/
structure Visiting (mode : Serializer.Mode) (loads : Loads) (kinds : List CoprocessorKind) (before after : Machine) : Prop
    extends Renewed mode loads kinds before after where
  active : after.scheduler.active = before.scheduler.active
  desynchronized : after.scheduler.desynchronized = before.scheduler.desynchronized

theorem serializeThread_yields (permitted : Permitted loads mode) (stack : Bool) {start machine : Machine} {id : ThreadId}
    (present : id ∈ threadsOf kinds.length) (visiting : Visiting mode loads kinds start machine) :
    Yields mode (12 + Board.visitSize kinds stack id) (serializeThread stack machine id) fun later =>
      Visiting mode loads kinds start later ∧ later.InRange id ∧ ∀ other, machine.InRange other → later.InRange other := by
  obtain ⟨scheduler, board⟩ := machine
  obtain ⟨thread, found⟩ := (Scheduler.found_of_wiring visiting.wired).mpr present
  have listed : id ∈ board.threads := by
    rw [Board.threads_eq visiting.fits]
    exact present
  refine .bind (Scheduler.serializeThread_yields found) ?_
  rintro _ ⟨value, rfl, near, standing, kept⟩
  refine .of_size (.bind (Board.serializeChip_yields permitted visiting.fits listed) fun chips visited => .pure ?_) rfl
  obtain ⟨renewed, ranged, keeps⟩ := visited
  refine ⟨⟨⟨visiting.control, visiting.entered, visiting.transfer, ?_, ?_, renewed.fits, fun writing other => ?_,
    fun writing other level => ?_, fun writing other rested => ?_⟩, visiting.active, visiting.desynchronized⟩, ⟨?_, ranged⟩, fun other before => ⟨?_, keeps other before.2⟩⟩
  · exact (Scheduler.shape_withTime value).trans visiting.wired
  · rw [Scheduler.time_withTime found]
    split
    next reference => rw [standing reference]; rfl
    next => exact visiting.reference
  · exact (Scheduler.state?_withTime value other).trans (visiting.states writing other)
  · have before := visiting.times writing other level
    rw [Scheduler.time_withTime found]
    split
    next same =>
      subst same
      rcases kept writing with rfl | rfl
      · rwa [Scheduler.time_eq found] at before
      · decide
    next => exact before
  · exact renewed.rested writing other (visiting.rested writing other rested)
  · intro last placed
    have placed := (Scheduler.thread?_withTime value id).symm.trans placed
    rw [if_pos rfl, show scheduler.thread? id = some thread from found] at placed
    cases placed
    exact near
  · intro last placed
    have placed := (Scheduler.thread?_withTime value other).symm.trans placed
    split at placed
    next same =>
      subst same
      rw [show scheduler.thread? id = some thread from found] at placed
      cases placed
      exact near
    next => exact before.1 last placed

/-- The size of a snapshot of a machine of these coprocessors, without the header. -/
def visitSize (kinds : List CoprocessorKind) (portable : Bool) : Nat :=
  8 + (Bus.visitSize kinds.length + (((threadsOf kinds.length).map fun id => 12 + Board.visitSize kinds (!portable) id).sum +
    if portable then 0 else 2 + (3 + kinds.length)))

/-- A machine after a visit of it. All its clocks and registers are in range, and its active thread is untouched or exists. -/
structure Visited (mode : Serializer.Mode) (loads : Loads) (kinds : List CoprocessorKind) (portable : Bool)
    (before after : Machine) : Prop extends Renewed mode loads kinds before after where
  near : ∀ id, after.Near id
  ranged : ∀ id, after.board.Ranged id
  untouched : portable = true → after.scheduler.active = before.scheduler.active ∧
    after.scheduler.desynchronized = before.scheduler.desynchronized
  active : portable = false → after.scheduler.active.index < after.scheduler.threads.size

theorem serialize_yields (permitted : Permitted loads mode) (portable : Bool) {machine : Machine}
    (sound : machine.Sound loads kinds) :
    Yields mode (visitSize kinds portable) (machine.serialize portable) (Visited mode loads kinds portable machine) := by
  obtain ⟨scheduler, ⟨bus, cpu, smp, ppu, coprocessors, frame⟩⟩ := machine
  have latches : bus.coprocessors.size = kinds.length := sound.fits.latches
  simp only [serialize, visitSize]
  refine .bind (.word _) fun count _ => .bind (latches ▸ bus.yields) fun memory same => ?_
  have fits : Board.Fits loads kinds ⟨memory, cpu, smp, ppu, coprocessors, count⟩ :=
    ⟨sound.fits.cpu, sound.fits.smp, sound.fits.ppu, same, sound.fits.chips, sound.fits.coprocessors⟩
  rw [Board.threads_eq fits]
  have start : Visiting mode loads kinds ⟨scheduler, ⟨bus, cpu, smp, ppu, coprocessors, frame⟩⟩
      ⟨scheduler, ⟨memory, cpu, smp, ppu, coprocessors, count⟩⟩ :=
    ⟨⟨rfl, rfl, rfl, sound.wired, sound.reference, fits, fun _ _ => rfl, fun _ _ => id, fun _ id rested => by
      cases id <;> exact rested⟩, rfl, rfl⟩
  refine .bind (.fold (Visiting mode loads kinds ⟨scheduler, ⟨bus, cpu, smp, ppu, coprocessors, frame⟩⟩)
    (fun id machine => machine.InRange id) _
    (fun id present machine visiting => serializeThread_yields permitted _ present visiting) start) ?_
  rintro ⟨later, board⟩ ⟨visiting, inside, _⟩
  have near : ∀ id, Near ⟨later, board⟩ id := fun id thread found =>
    (inside id ((Scheduler.found_of_wiring visiting.wired).mp ⟨thread, found⟩)).1 thread found
  have ranged : ∀ id, board.Ranged id := by
    intro id
    cases id with
    | cpu => exact (inside .cpu (mem_threadsOf.mpr (Nat.lt_of_lt_of_le (by decide) (Nat.le_add_right _ _)))).2
    | ppu => exact (inside .ppu (mem_threadsOf.mpr (Nat.lt_of_lt_of_le (by decide) (Nat.le_add_right _ _)))).2
    | smp | coprocessor => trivial
  cases portable with
  | true => exact .pure ⟨visiting.toRenewed, near, ranged, fun _ => ⟨visiting.active, visiting.desynchronized⟩, by simp⟩
  | false =>
    have size := Scheduler.size_of_wiring visiting.wired
    simp only at size
    refine .of_size (.bind later.serializeStack_yields fun last restacked => .pure ?_) (by rw [size]; rfl)
    have times : ∀ id, last.time id = later.time id := by
      intro id
      have same := congrArg (Option.map fun clock : Clock => clock.value.toInt) (restacked.clocks id)
      simp only [Option.map_map] at same
      exact congrArg (Option.getD · 0) same
    have states : mode ≠ .load → ∀ id, last.state? id = later.state? id := fun writing id => by
      rw [Scheduler.state?, Scheduler.thread?, restacked.threads writing]
      rfl
    refine ⟨⟨restacked.control.trans visiting.control, restacked.entered.trans visiting.entered,
      restacked.transfer.trans visiting.transfer, restacked.shape.trans visiting.wired, (times .cpu).trans visiting.reference,
      visiting.fits, fun writing id => (states writing id).trans (visiting.states writing id), fun writing id level => ?_,
      visiting.rested⟩, fun id thread found => ?_, ranged, by simp, fun _ => ?_⟩
    · exact (times id).symm ▸ visiting.times writing id level
    · have same := restacked.clocks id
      rw [show last.thread? id = some thread from found] at same
      obtain ⟨before, present, clock⟩ := Option.map_eq_some_iff.mp same.symm
      have close := near id before present
      rwa [Thread.Near, Thread.distance, clock] at close
    · have total := Scheduler.size_of_wiring (restacked.shape.trans visiting.wired)
      exact restacked.active (by omega)

end Machine
end MultiClock
