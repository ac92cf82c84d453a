import MultiClock.Proofs.StorableMachines

/-! What a visit changes that only counts or writes. It puts each clock back to the reference that no snapshot may hold, and it keeps
registers that a snapshot may hold: if all of them are, nothing else changes. -/

namespace MultiClock

open Snapshot Visit

variable {mode : Serializer.Mode} {loads : Loads} {kinds : List CoprocessorKind}

namespace Thread

/-- The thread as any visit leaves it: a clock that is too far away is back at the reference. -/
def mended (thread : Thread) : Thread := if thread.distance ≤ Clock.maxDistance then thread else thread.setTo 0

variable {thread : Thread}

theorem mended_of_near (near : thread.Near) : thread.mended = thread := if_pos near

theorem near_mended (thread : Thread) : thread.mended.Near := by
  rw [mended]
  split
  next near => exact near
  next => exact near_zero thread

theorem mended_again (thread : Thread) : thread.mended.mended = thread.mended := mended_of_near thread.near_mended

theorem mended_id (thread : Thread) : thread.mended.id = thread.id := by
  rw [mended]
  split <;> rfl

theorem mended_frequency (thread : Thread) : thread.mended.clock.frequency = thread.clock.frequency := by
  rw [mended]
  split <;> rfl

end Thread

namespace Scheduler

def mended (scheduler : Scheduler) : Scheduler := { scheduler with threads := scheduler.threads.map Thread.mended }

/-- The scheduler after a visit of these threads. -/
def mend (ids : List ThreadId) (scheduler : Scheduler) : Scheduler :=
  { scheduler with threads := ids.foldl (fun threads id => threads.modify id.index Thread.mended) scheduler.threads }

variable {scheduler : Scheduler} {id : ThreadId} {thread : Thread}

theorem shape_mendOne (scheduler : Scheduler) (id : ThreadId) : (scheduler.modifyThread id Thread.mended).shape = scheduler.shape :=
  shape_modifyThread scheduler id _ fun thread => ⟨thread.mended_id, thread.mended_frequency⟩

theorem time_mendOne (level : scheduler.time .cpu = 0) (id : ThreadId) : (scheduler.modifyThread id Thread.mended).time .cpu = 0 := by
  rw [time, thread?_modifyThread]
  split
  next =>
    cases found : scheduler.thread? .cpu with
    | none => rfl
    | some thread =>
      rw [time_eq found] at level
      have near : thread.Near := by
        rw [Thread.Near, Thread.distance, level]
        decide
      rw [Option.map_some, Thread.mended_of_near near]
      exact level
  next => exact level

theorem getElem?_mend (ids : List ThreadId) (threads : Array Thread) (position : Nat) :
    (ids.foldl (fun threads id => threads.modify id.index Thread.mended) threads)[position]? =
      if position ∈ ids.map ThreadId.index then threads[position]?.map Thread.mended else threads[position]? := by
  induction ids generalizing threads with
  | nil => simp
  | cons id ids ih =>
    rw [List.foldl_cons, ih, Array.getElem?_modify]
    by_cases here : id.index = position
    · simp [here, Option.map_map, Function.comp_def, Thread.mended_again]
    · simp [here, Ne.symm here]

theorem mend_all (wired : scheduler.shape = wiring kinds) (few : kinds.length ≤ Cartridge.maxCoprocessors) :
    scheduler.mend (threadsOf kinds.length) = scheduler.mended := by
  suffices same : (threadsOf kinds.length).foldl (fun threads id => threads.modify id.index Thread.mended) scheduler.threads =
      scheduler.threads.map Thread.mended by
    rw [mend, mended, same]
  refine Array.ext_getElem? fun position => ?_
  rw [getElem?_mend, Array.getElem?_map]
  split
  next => rfl
  next missing =>
    cases found : scheduler.threads[position]? with
    | none => rfl
    | some thread =>
      have indexed := indexed_of_wiring few wired position thread found
      refine absurd (List.mem_map.mpr ⟨thread.id, ?_, indexed⟩) missing
      rw [mem_threadsOf, indexed, ← size_of_wiring wired]
      exact (Array.getElem?_eq_some_iff.mp found).1

/-- A visit that does not load leaves a clock as it is if it is near, and otherwise puts it back. -/
theorem serializeThread_mends (writing : mode ≠ .load) (found : scheduler.thread? id = some thread)
    (standing : id = .cpu → thread.clock.value = 0) :
    Yields mode 12 (scheduler.serializeThread id) (· = scheduler.modifyThread id Thread.mended) := by
  by_cases near : thread.Near
  · obtain ⟨bytes, writes, _⟩ := serializeThread_transfers found found near standing rfl
    rw [modifyThread_same found (Thread.mended_of_near near)]
    exact (serializeThread_yields found).exactly writing writes
  · refine (serializeThread_yields found).mono ?_
    intro later visited
    obtain ⟨value, rfl, close, _, kept⟩ := visited
    obtain rfl | rfl := kept writing
    · exact absurd close near
    · exact modifyThread_congr found (if_neg near).symm

theorem serializeStack_keeps (writing : mode ≠ .load) (inside : scheduler.active.index < scheduler.threads.size)
    (few : scheduler.threads.size ≤ 256) :
    Yields mode (2 + scheduler.threads.size) scheduler.serializeStack (· = scheduler) := by
  obtain ⟨bytes, writes, _⟩ := serializeStack_transfers scheduler.active.ofIndex?_index inside few rfl
    fun position thread rest found placed => by
      cases found.symm.trans placed
      exact ⟨rfl, rfl⟩
  exact scheduler.serializeStack_yields.exactly writing writes

end Scheduler

namespace Board

variable {board : Board} {id : ThreadId}

/-- A visit that does not load leaves a chip as it is if its registers are ones that a snapshot may hold. -/
theorem serializeChip_keeps (writing : mode ≠ .load) (fits : board.Fits loads kinds) (ranged : board.Ranged id)
    (present : id ∈ board.threads) (stack : Bool) :
    Yields mode (visitSize kinds stack id) (board.serializeChip id stack) (· = board) := by
  have same : ∀ id, board.SameWork board id := fun id => .of_same (by cases id <;> rfl)
  obtain ⟨_, ⟨bytes, writes, _⟩, _⟩ := serializeChip_transfers fits fits ranged present (.inr same)
  exact (serializeChip_yields (fun _ => writing) fits present).exactly writing writes

end Board

namespace Machine

def mended (machine : Machine) : Machine := { machine with scheduler := machine.scheduler.mended }

variable {machine : Machine}

theorem thread?_mended (machine : Machine) (id : ThreadId) :
    machine.mended.scheduler.thread? id = (machine.scheduler.thread? id).map Thread.mended := Array.getElem?_map

theorem mended_of_near (near : ∀ id, machine.Near id) (wired : machine.scheduler.shape = wiring kinds)
    (few : kinds.length ≤ Cartridge.maxCoprocessors) : machine.mended = machine := by
  suffices same : machine.scheduler.threads.map Thread.mended = machine.scheduler.threads by
    rw [mended, Scheduler.mended, same]
  refine Array.ext_getElem? fun position => ?_
  rw [Array.getElem?_map]
  cases found : machine.scheduler.threads[position]? with
  | none => rfl
  | some thread =>
    have indexed := Scheduler.indexed_of_wiring few wired position thread found
    have close := near thread.id thread (by rw [Scheduler.thread?, indexed, found])
    rw [Option.map_some, Thread.mended_of_near close]

theorem mended_eq_self (wired : machine.scheduler.shape = wiring kinds) (few : kinds.length ≤ Cartridge.maxCoprocessors) :
    machine.mended = machine ↔ ∀ id, machine.Near id := by
  refine ⟨fun same id thread found => ?_, fun near => mended_of_near near wired few⟩
  have view := machine.thread?_mended id
  rw [same, found, Option.map_some] at view
  rw [Option.some.inj view]
  exact thread.near_mended

theorem time_mended (machine : Machine) (id : ThreadId) : machine.mended.scheduler.time id =
    if (machine.scheduler.time id).natAbs ≤ Clock.maxDistance then machine.scheduler.time id else 0 := by
  have view := machine.thread?_mended id
  cases found : machine.scheduler.thread? id with
  | none => simp [Scheduler.time, view, found]
  | some thread =>
    rw [found, Option.map_some] at view
    rw [Scheduler.time_eq view, Scheduler.time_eq found, Thread.mended, Thread.distance]
    split
    next => rfl
    next => rfl

/-- One thread is visited after the other. Each keeps its chip, and its clock if that is near. -/
theorem serializeThreads_mend (writing : mode ≠ .load) (stack : Bool) {board : Board} (fits : board.Fits loads kinds)
    (storable : board.Storable) (ids : List ThreadId) (listed : ∀ id ∈ ids, id ∈ threadsOf kinds.length) {scheduler : Scheduler}
    (wired : scheduler.shape = wiring kinds) (level : scheduler.time .cpu = 0) :
    Yields mode (ids.map fun id => 12 + Board.visitSize kinds stack id).sum (ids.foldlM (serializeThread stack) ⟨scheduler, board⟩)
      (· = ⟨scheduler.mend ids, board⟩) := by
  induction ids generalizing scheduler with
  | nil => exact .pure rfl
  | cons id ids ih =>
    rw [List.foldlM_cons, List.map_cons, List.sum_cons]
    have present := listed id List.mem_cons_self
    obtain ⟨thread, found⟩ := (Scheduler.found_of_wiring wired).mpr present
    -- A reader demands that the reference stands at zero. It does, before it is mended and after.
    have standing : id = .cpu → thread.clock.value = 0 := by
      rintro rfl
      exact Scheduler.value_eq_zero found level
    have visits : Yields mode (12 + Board.visitSize kinds stack id) (serializeThread stack ⟨scheduler, board⟩ id)
        (· = ⟨scheduler.modifyThread id Thread.mended, board⟩) := by
      refine .bind (Scheduler.serializeThread_mends writing found standing) ?_
      rintro _ rfl
      refine .of_size (.bind (Board.serializeChip_keeps writing fits (storable id) ?_ stack) ?_) (Nat.add_zero _)
      · rw [Board.threads_eq fits]
        exact present
      · rintro _ rfl
        exact .pure rfl
    refine visits.bind ?_
    rintro _ rfl
    exact ih (fun other member => listed other (List.mem_cons_of_mem id member)) ((scheduler.shape_mendOne id).trans wired)
      (Scheduler.time_mendOne level id)

/-- A visit that does not load puts back the clocks that are too far away. Nothing else changes. -/
theorem serialize_mends (writing : mode ≠ .load) (few : kinds.length ≤ Cartridge.maxCoprocessors) (portable : Bool)
    (sound : machine.Sound loads kinds) (storable : machine.board.Storable) (directed : machine.Directed) :
    Yields mode (visitSize kinds portable) (machine.serialize portable) (· = machine.mended) := by
  obtain ⟨scheduler, ⟨bus, cpu, smp, ppu, coprocessors, frame⟩⟩ := machine
  have fits : Board.Fits loads kinds ⟨bus, cpu, smp, ppu, coprocessors, frame⟩ := sound.fits
  obtain ⟨bytes, writes, _⟩ := @Bus.transfers bus bus rfl
  have latches : bus.coprocessors.size = kinds.length := fits.latches
  simp only [serialize, visitSize]
  refine .bind (.word _) fun count same => ?_
  cases same writing
  refine .bind (latches ▸ bus.yields.exactly writing writes) ?_
  rintro _ rfl
  rw [Board.threads_eq fits]
  refine .bind (serializeThreads_mend writing (!portable) fits storable _ (fun _ => id) sound.wired sound.reference) ?_
  rintro _ rfl
  rw [Scheduler.mend_all sound.wired few]
  cases portable with
  | true => exact .pure rfl
  | false =>
    have size : scheduler.mended.threads.size = 3 + kinds.length := Array.size_map.trans (Scheduler.size_of_wiring sound.wired)
    have inside : scheduler.active.index < scheduler.mended.threads.size := Array.size_map.symm ▸ directed.active
    have narrow : scheduler.mended.threads.size ≤ 256 := by
      simp only [Cartridge.maxCoprocessors] at few
      omega
    refine .of_size (.bind (Scheduler.serializeStack_keeps writing inside narrow) fun later same => .pure ?_) (by rw [size]; rfl)
    rw [same]
    rfl

theorem measure_mends (few : kinds.length ≤ Cartridge.maxCoprocessors) (portable : Bool) (sound : machine.Sound loads kinds)
    (storable : machine.board.Storable) (directed : machine.Directed) : (machine.measure portable).2 = machine.mended := by
  have writing : Serializer.Mode.measure ≠ .load := by decide
  have yields := serialize_mends writing few portable sound storable directed Serializer.measure rfl
  rw [measure_eq]
  generalize machine.serialize portable Serializer.measure = result at yields ⊢
  obtain ⟨later, s⟩ := result
  obtain ⟨same, _⟩ := yields
  exact same

end Machine
end MultiClock
