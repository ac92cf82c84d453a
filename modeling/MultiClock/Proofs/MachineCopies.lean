import MultiClock.Proofs.MachineVisits

/-! A reader that starts from a machine of the same coprocessors ends up with the writer's machine: with
its clocks and chips, and in an instant snapshot also with where its threads are suspended. -/

namespace MultiClock

open Visit

variable {loads : Loads} {kinds : List CoprocessorKind}

theorem Board.ext_of_chips {first second : Board} (few : kinds.length ≤ Cartridge.maxCoprocessors)
    (size : first.coprocessors.size = kinds.length) (alike : second.coprocessors.size = kinds.length) (bus : first.bus = second.bus)
    (frame : first.frame = second.frame) (chips : ∀ id ∈ threadsOf kinds.length, first.SameChip second id) : first = second := by
  have coprocessors : first.coprocessors = second.coprocessors := by
    refine Array.ext_getElem? fun position => ?_
    by_cases inside : position < kinds.length
    · simp only [Cartridge.maxCoprocessors] at few
      have number : (UInt8.ofNat position).toNat = position := by
        rw [UInt8.toNat_ofNat']
        omega
      have same := chips (.coprocessor (UInt8.ofNat position)) (mem_threadsOf.mpr (by
        rw [ThreadId.index, number]
        omega))
      rwa [SameChip, number] at same
    · rw [Array.getElem?_eq_none (by omega), Array.getElem?_eq_none (by omega)]
  obtain ⟨_, _, _, _, _, _⟩ := first
  obtain ⟨_, _, _, _, _, _⟩ := second
  cases bus
  cases frame
  cases coprocessors
  cases show _ = _ from chips .cpu (mem_threadsOf.mpr (by simp only [ThreadId.index]; omega))
  cases show _ = _ from chips .smp (mem_threadsOf.mpr (by simp only [ThreadId.index]; omega))
  cases show _ = _ from chips .ppu (mem_threadsOf.mpr (by simp only [ThreadId.index]; omega))
  rfl

theorem ThreadId.ofIndex?_index (id : ThreadId) : ofIndex? id.index = some id := by
  cases id with
  | cpu | smp | ppu => rfl
  | coprocessor index => rw [ThreadId.index, Nat.add_comm, ofIndex?, if_pos index.toNat_lt, UInt8.ofNat_toNat]

/-- Threads of equal wirings have the same names and frequencies. -/
theorem Scheduler.alike_of_shape {first second : Scheduler} (same : first.shape = second.shape) {position : Nat}
    {thread rest : Thread} (found : first.threads[position]? = some thread) (placed : second.threads[position]? = some rest) :
    rest.id = thread.id ∧ rest.clock.frequency = thread.clock.frequency := by
  have views := congrArg (·[position]?) same
  simp only [shape, List.getElem?_map, Array.getElem?_toList, found, placed, Option.map_some, Option.some.injEq,
    Prod.mk.injEq] at views
  exact ⟨views.1.symm, views.2.symm⟩

/-- Threads of the same names with the same clocks, wherever they are suspended. -/
def SameClocks (first second : Array Thread) : Prop :=
  first.size = second.size ∧ ∀ (position : Nat) thread rest, first[position]? = some thread → second[position]? = some rest →
    rest.id = thread.id ∧ rest.clock = thread.clock

namespace Machine

/-- What a reader has while it takes one thread after the other. -/
structure Copying (loads : Loads) (kinds : List CoprocessorKind) (stack : Bool) (source base loaded : Machine) : Prop where
  control : loaded.scheduler = { base.scheduler with threads := loaded.scheduler.threads }
  wired : loaded.scheduler.shape = wiring kinds
  fits : loaded.board.Fits loads kinds
  bus : loaded.board.bus = source.board.bus
  frame : loaded.board.frame = source.board.frame
  complete : Board.Complete stack source.board loaded.board

/-- A thread and its chip are taken. -/
def Copied (source : Machine) (id : ThreadId) (loaded : Machine) : Prop :=
  (loaded.scheduler.thread? id).map Thread.clock = (source.scheduler.thread? id).map Thread.clock ∧
    loaded.board.SameChip source.board id

theorem serializeThread_transfers {stack : Bool} {source base start : Machine} (sound : source.Sound loads kinds)
    (near : ∀ id, source.Near id) (ranged : ∀ id, source.board.Ranged id) {id : ThreadId} (present : id ∈ threadsOf kinds.length)
    (copying : Copying loads kinds stack source start base) :
    ∃ loaded, Transfers (serializeThread stack source id) (serializeThread stack base id) source loaded ∧
      Copying loads kinds stack source start loaded ∧ Copied source id loaded ∧
      ∀ other, Copied source other base → Copied source other loaded := by
  obtain ⟨scheduler, board⟩ := source
  obtain ⟨rest, chips⟩ := base
  obtain ⟨thread, found⟩ := (Scheduler.found_of_wiring sound.wired).mpr present
  obtain ⟨other, placed⟩ := (Scheduler.found_of_wiring copying.wired).mpr present
  have listed : id ∈ board.threads := by
    rw [Board.threads_eq sound.fits]
    exact present
  have alike : other.clock.frequency = thread.clock.frequency :=
    (Scheduler.alike_of_shape (sound.wired.trans copying.wired.symm) found placed).2
  have standing : id = .cpu → thread.clock.value = 0 := by
    rintro rfl
    exact Scheduler.value_eq_zero found sound.reference
  have clock : ((some other).map fun found => found.setTo thread.clock.value).map Thread.clock =
      (scheduler.thread? id).map Thread.clock := by
    rw [show scheduler.thread? id = some thread from found]
    simp [Thread.setTo, alike]
  obtain ⟨loaded, transfers, taken⟩ := Board.serializeChip_transfers sound.fits copying.fits (ranged id) listed copying.complete
  refine ⟨⟨rest.withTime id thread.clock.value, loaded⟩,
    .bind (Scheduler.serializeThread_transfers found placed (near id thread found) standing alike)
      (.bind transfers (.pure _ _)), ?_, ?_, ?_⟩
  · refine ⟨?_, (Scheduler.shape_withTime _).trans copying.wired, taken.fits, taken.bus.trans copying.bus,
      taken.frame.trans copying.frame, copying.complete.imp_right fun work other => taken.work other (work other)⟩
    have control := copying.control
    simp only [Scheduler.withTime, Scheduler.modifyThread] at control ⊢
    rw [control]
  · refine ⟨?_, taken.here⟩
    rw [show Scheduler.thread? _ id = _ from Scheduler.thread?_withTime _ id, if_pos rfl, show rest.thread? id = some other from placed]
    exact clock
  · rintro next ⟨before, chip⟩
    refine ⟨?_, taken.others next chip⟩
    rw [show Scheduler.thread? _ next = _ from Scheduler.thread?_withTime _ next]
    split
    next same =>
      subst same
      rw [show rest.thread? id = some other from placed]
      exact clock
    next => exact before

/-- Every thread and every chip is taken. -/
theorem threads_transfer (few : kinds.length ≤ Cartridge.maxCoprocessors) {stack : Bool} {source base : Machine}
    (sound : source.Sound loads kinds) (near : ∀ id, source.Near id) (ranged : ∀ id, source.board.Ranged id)
    (copying : Copying loads kinds stack source base base) :
    ∃ threads, SameClocks source.scheduler.threads threads ∧
      Transfers ((threadsOf kinds.length).foldlM (serializeThread stack) source)
        ((threadsOf kinds.length).foldlM (serializeThread stack) base) source
        ⟨{ base.scheduler with threads }, source.board⟩ := by
  have each : ∀ id ∈ threadsOf kinds.length, ∀ now, Copying loads kinds stack source base now → ∃ loaded,
      Transfers (serializeThread stack source id) (serializeThread stack now id) source loaded ∧
        Copying loads kinds stack source base loaded ∧ Copied source id loaded ∧
        ∀ other, Copied source other now → Copied source other loaded :=
    fun id present now copying => serializeThread_transfers sound near ranged present copying
  obtain ⟨⟨loaded, board⟩, transfers, copied, done, _⟩ := Transfers.fold _ _ _ each copying
  have same : board = source.board :=
    Board.ext_of_chips few copied.fits.chips sound.fits.chips copied.bus copied.frame fun id present => (done id present).2
  refine ⟨loaded.threads, ⟨?_, fun position thread rest found placed => ?_⟩, transfers.as rfl ?_⟩
  · rw [Scheduler.size_of_wiring sound.wired, Scheduler.size_of_wiring (show loaded.shape = _ from copied.wired)]
  · obtain ⟨id, _⟩ := Scheduler.alike_of_shape (sound.wired.trans copied.wired.symm) found placed
    have named := Scheduler.indexed_of_wiring few sound.wired position thread found
    have present : thread.id ∈ threadsOf kinds.length := by
      rw [mem_threadsOf, named, ← Scheduler.size_of_wiring sound.wired]
      exact (Array.getElem?_eq_some_iff.mp found).1
    have clock := (done thread.id present).1
    simp only [Scheduler.thread?, named] at clock
    rw [found, placed] at clock
    exact ⟨id, Option.some.inj clock⟩
  · rw [← same, ← show loaded = _ from copied.control]

/-- The reader of a machine ends up with the writer's chips and clocks. What goes with suspended chips is
the reader's own in a portable snapshot and the writer's in an instant one. -/
theorem serialize_transfers (few : kinds.length ≤ Cartridge.maxCoprocessors) (portable : Bool) {source base : Machine}
    (sound : source.Sound loads kinds) (start : base.Sound loads kinds) (near : ∀ id, source.Near id)
    (ranged : ∀ id, source.board.Ranged id)
    (active : portable = false → source.scheduler.active.index < source.scheduler.threads.size)
    (complete : Board.Complete (!portable) source.board base.board) :
    ∃ threads, SameClocks source.scheduler.threads threads ∧
      Transfers (source.serialize portable) (base.serialize portable) source
        ⟨if portable then { base.scheduler with threads } else { base.scheduler with
          active := source.scheduler.active, desynchronized := source.scheduler.desynchronized,
          threads := source.scheduler.threads }, source.board⟩ := by
  obtain ⟨scheduler, ⟨bus, cpu, smp, ppu, coprocessors, frame⟩⟩ := source
  obtain ⟨rest, ⟨memory, first, second, third, others, count⟩⟩ := base
  have fits : Board.Fits loads kinds ⟨bus, first, second, third, others, frame⟩ :=
    ⟨start.fits.cpu, start.fits.smp, start.fits.ppu, sound.fits.latches, start.fits.chips, start.fits.coprocessors⟩
  have copying : Copying loads kinds (!portable) ⟨scheduler, ⟨bus, cpu, smp, ppu, coprocessors, frame⟩⟩
      ⟨rest, ⟨bus, first, second, third, others, frame⟩⟩ ⟨rest, ⟨bus, first, second, third, others, frame⟩⟩ :=
    ⟨rfl, start.wired, fits, rfl, rfl, complete.imp_right fun work id => by
      have same := work id
      cases id <;> exact same⟩
  obtain ⟨threads, same, copied⟩ := threads_transfer few sound near ranged copying
  have latches : bus.coprocessors.size = memory.coprocessors.size := sound.fits.latches.trans start.fits.latches.symm
  refine ⟨threads, same, ?_⟩
  simp only [serialize]
  refine .bind (.word _ _) (.bind (Bus.transfers latches) ?_)
  rw [Board.threads_eq fits, Board.threads_eq (show Board.Fits loads kinds ⟨bus, cpu, smp, ppu, coprocessors, frame⟩ from
    sound.fits)]
  refine .bind copied ?_
  cases portable with
  | true => exact .pure _ _
  | false =>
    have size : scheduler.threads.size = _ := Scheduler.size_of_wiring sound.wired
    have narrow : scheduler.threads.size ≤ 256 := by
      simp only [Cartridge.maxCoprocessors] at few
      omega
    exact .bind (Scheduler.serializeStack_transfers scheduler.active.ofIndex?_index (active rfl) narrow same.1 same.2)
      (.pure _ _)

end Machine
end MultiClock
