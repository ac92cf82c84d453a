import MultiClock.Proofs.ExactClocks
import MultiClock.Proofs.SettlingMachines

/-! What goes with suspended chips, for as many threads as have names. Every state and the flag come back. The number of the active
thread is cut to one byte, so of 259 threads the last three come back as the first three. Whatever is loaded, the active thread is one
of the threads that were created. -/

namespace MultiClock.Scheduler

open Visit

variable {scheduler base : Scheduler}

theorem Indexed.mem (indexed : scheduler.Indexed) {id : ThreadId} (inside : id.index < scheduler.threads.size) :
    id ∈ scheduler.threads.map Thread.id := by
  obtain ⟨thread, found⟩ := found_of_lt inside
  exact Array.mem_map.mpr ⟨thread, Array.mem_of_getElem? found, indexed.id_eq found⟩

theorem size_create (few : scheduler.threads.size < 259) (frequency : UInt32) :
    (scheduler.create frequency).threads.size = scheduler.threads.size + 1 := by
  obtain ⟨id, named, -⟩ := ThreadId.ofIndex?_eq few
  rw [create, named]
  exact Array.size_push _

/-- There are names for 259 threads. -/
theorem size_createAll {frequencies : List UInt32} (few : frequencies.length ≤ 259) :
    (createAll frequencies).threads.size = frequencies.length := by
  suffices every : ∀ scheduler : Scheduler, scheduler.threads.size + frequencies.length ≤ 259 →
      (frequencies.foldl create scheduler).threads.size = scheduler.threads.size + frequencies.length from
    (every empty ((Nat.zero_add _).symm ▸ few)).trans (Nat.zero_add _)
  clear few
  induction frequencies with
  | nil => exact fun _ _ => rfl
  | cons frequency frequencies ih =>
    intro scheduler few
    rw [List.length_cons] at few ⊢
    have created : (scheduler.create frequency).threads.size = scheduler.threads.size + 1 := size_create (by omega) frequency
    rw [List.foldl_cons, ih _ (by omega), created]
    omega

theorem loaded_active (indexed : base.Indexed) (filled : 0 < base.threads.size) (data : Array UInt8) :
    (base.serializeStack (Serializer.load data)).1.active ∈ base.threads.map Thread.id := by
  obtain ⟨restacked, -⟩ := base.serializeStack_yields (Serializer.load data) rfl
  have size := size_of_shape restacked.shape
  apply indexed.mem
  rw [← size]
  exact restacked.active (size.symm ▸ filled)

/-- What one byte leaves of a number still names a thread, and the same one up to number 255. -/
theorem exists_narrowed (id : ThreadId) :
    ∃ narrowed : ThreadId, narrowed.index = id.index % 256 ∧ (narrowed = id ↔ id.index < 256) := by
  have small : id.index % 256 < 256 := Nat.mod_lt _ (Nat.succ_pos 255)
  obtain ⟨narrowed, -, number⟩ := ThreadId.ofIndex?_eq (Nat.lt_trans small (by omega))
  refine ⟨narrowed, number, ?_⟩
  constructor
  · intro same
    rwa [← number, same] at small
  · intro low
    apply ThreadId.index_injective
    rw [number, Nat.mod_eq_of_lt low]

/-- A scheduler with as many threads takes exactly the bytes that were saved, and every thread is suspended as it was. Active is the
thread whose number is left in one byte, already when the scheduler is saved, so the active thread is restored up to number 255 only.
Any bytes at all leave one of the threads active. -/
theorem stack_restored (active : scheduler.active.index < scheduler.threads.size) (indexed : base.Indexed)
    (size : base.threads.size = scheduler.threads.size) :
    (∃ (id : ThreadId) (bytes : Array UInt8), id.index = scheduler.active.index % 256 ∧
      (id = scheduler.active ↔ scheduler.active.index < 256) ∧
      scheduler.serializeStack Serializer.save =
        ({ scheduler with active := id }, { Serializer.save with buffer := bytes, cursor := bytes.size }) ∧
      base.serializeStack (Serializer.load bytes) = ({ base with
        active := id
        desynchronized := scheduler.desynchronized
        threads := Array.zipWith (fun thread rest => { rest with state := thread.state }) scheduler.threads base.threads },
        { Serializer.load bytes with cursor := bytes.size })) ∧
    ∀ data : Array UInt8, (base.serializeStack (Serializer.load data)).1.active ∈ base.threads.map Thread.id := by
  refine ⟨?_, fun data => loaded_active indexed (size ▸ Nat.zero_lt_of_lt active) data⟩
  obtain ⟨id, number, restored⟩ := exists_narrowed scheduler.active
  have inside : id.index < scheduler.threads.size := number ▸ Nat.lt_of_le_of_lt (Nat.mod_le _ _) active
  obtain ⟨bytes, writes, reads⟩ := serializeStack_narrows id.ofIndex?_index number inside size.symm
  refine ⟨id, bytes.toArray, number, restored, ?_, ?_⟩
  · rw [writes Serializer.save (by decide)]
    simp [Serializer.wrote, Serializer.save]
  · have holds : (Serializer.load bytes.toArray).Holds bytes := ⟨[], [], by simp [Serializer.load], rfl⟩
    rw [reads (Serializer.load bytes.toArray) rfl holds]
    simp [Serializer.took, Serializer.load]

/-- Of 259 threads number 256 is active when they are saved, and the reference when they are loaded. -/
theorem stack_restored_crowded : ∃ crowded : Scheduler, crowded = createAll (List.replicate 259 3) ∧
    (ThreadId.coprocessor 253).index < crowded.threads.size ∧ crowded.Indexed ∧ ∃ bytes : Array UInt8,
      ({ crowded with active := .coprocessor 253 }.serializeStack Serializer.save).2.buffer = bytes ∧
      (crowded.serializeStack (Serializer.load bytes)).1.active = .cpu := by
  obtain ⟨crowded, created⟩ : ∃ crowded, crowded = createAll (List.replicate 259 3) := ⟨_, rfl⟩
  have indexed : crowded.Indexed := created ▸ createAll_indexed _
  have size : crowded.threads.size = 259 := by
    rw [created, size_createAll List.length_replicate.le, List.length_replicate]
  have active : (ThreadId.coprocessor 253).index < crowded.threads.size := by
    rw [size]
    decide
  refine ⟨crowded, created, active, indexed, ?_⟩
  obtain ⟨⟨id, bytes, number, -, saved, loaded⟩, -⟩ :=
    @stack_restored { crowded with active := .coprocessor 253 } crowded active indexed rfl
  have wrapped : (ThreadId.coprocessor 253).index % 256 = ThreadId.cpu.index := by decide
  refine ⟨bytes, congrArg (fun result => result.2.buffer) saved, ?_⟩
  rw [loaded]
  exact ThreadId.index_injective (number.trans wrapped)

end MultiClock.Scheduler
