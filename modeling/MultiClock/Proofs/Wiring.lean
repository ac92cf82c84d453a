import MultiClock.Cartridge
import MultiClock.Machine
import MultiClock.Proofs.SchedulerSteps

/-! How the threads of a machine are laid out. A machine is created with one thread for every chip, at
the chip's frequency, and it keeps them for good. -/

namespace MultiClock

/-- The names and the frequencies of the threads of a machine. -/
def wiring (kinds : List CoprocessorKind) : List (ThreadId × UInt32) :=
  (.cpu, Clock.cpuFrequency) :: (.smp, Clock.smpFrequency) :: (.ppu, Clock.cpuFrequency) ::
    kinds.mapIdx fun position kind =>
      (.coprocessor (UInt8.ofNat position), (Coprocessor.create kind (UInt8.ofNat position)).frequency)

@[simp] theorem length_wiring (kinds : List CoprocessorKind) : (wiring kinds).length = 3 + kinds.length := by
  simp only [wiring, List.length_cons, List.length_mapIdx]
  omega

/-- The frequencies of all chips stay well below the word that holds them. -/
theorem wiring_frequency {kinds : List CoprocessorKind} {id : ThreadId} {frequency : UInt32}
    (member : (id, frequency) ∈ wiring kinds) : frequency.toNat ≤ 24576000 := by
  simp only [wiring, List.mem_cons, Prod.mk.injEq, List.mem_mapIdx] at member
  rcases member with ⟨_, rfl⟩ | ⟨_, rfl⟩ | ⟨_, rfl⟩ | ⟨position, inside, _, rfl⟩
  · decide
  · decide
  · decide
  · cases kinds[position] with
    | multiplier => exact (by decide : Multiplier.frequency.toNat ≤ 24576000)
    | rtc => exact (by decide : Rtc.frequency.toNat ≤ 24576000)

/-- Every thread of the wiring is at the position that its name says, as long as there are names. -/
theorem wiring_indexed {kinds : List CoprocessorKind} (few : kinds.length ≤ Cartridge.maxCoprocessors) {position : Nat}
    {id : ThreadId} {frequency : UInt32} (placed : (wiring kinds)[position]? = some (id, frequency)) :
    id.index = position := by
  match position with
  | 0 | 1 | 2 =>
    cases placed
    rfl
  | position + 3 =>
    simp only [wiring, List.getElem?_cons_succ, List.getElem?_mapIdx, Option.map_eq_some_iff, Prod.mk.injEq] at placed
    obtain ⟨kind, placed, rfl, _⟩ := placed
    have inside := (List.getElem?_eq_some_iff.mp placed).1
    simp only [Cartridge.maxCoprocessors] at few
    simp only [ThreadId.index, UInt8.toNat_ofNat']
    omega

namespace Scheduler

theorem indexed_of_wiring {kinds : List CoprocessorKind} (few : kinds.length ≤ Cartridge.maxCoprocessors)
    {scheduler : Scheduler} (wired : scheduler.shape = wiring kinds) : scheduler.Indexed := by
  intro position thread found
  have placed : (wiring kinds)[position]? = some (thread.id, thread.clock.frequency) := by
    rw [← wired]
    simp [shape, found]
  exact wiring_indexed few placed

theorem size_of_wiring {kinds : List CoprocessorKind} {scheduler : Scheduler} (wired : scheduler.shape = wiring kinds) :
    scheduler.threads.size = 3 + kinds.length := by
  have same := congrArg List.length wired
  simpa [shape] using same

theorem rate_of_wiring {kinds : List CoprocessorKind} {scheduler : Scheduler} (wired : scheduler.shape = wiring kinds)
    (id : ThreadId) : scheduler.rate id ≤ 24576000 := by
  cases found : scheduler.thread? id with
  | none => simp [rate, found]
  | some thread =>
    have placed : scheduler.shape[id.index]? = some (thread.id, thread.clock.frequency) := by
      simp only [shape, List.getElem?_map, Array.getElem?_toList, show scheduler.threads[id.index]? = some thread from found]
      rfl
    rw [wired] at placed
    rw [rate_eq found]
    exact wiring_frequency (List.mem_of_getElem? placed)

theorem rate_of_placed {kinds : List CoprocessorKind} {scheduler : Scheduler} (wired : scheduler.shape = wiring kinds)
    {id : ThreadId} {frequency : UInt32} (placed : (wiring kinds)[id.index]? = some (id, frequency)) :
    scheduler.rate id = frequency.toNat := by
  rw [← wired] at placed
  simp only [shape, List.getElem?_map, Array.getElem?_toList, Option.map_eq_some_iff, Prod.mk.injEq] at placed
  obtain ⟨thread, found, _, frequency⟩ := placed
  rw [rate_eq (show scheduler.thread? id = some thread from found), frequency]

/-- Time is measured in the reference's frequency. -/
theorem reference_rate {kinds : List CoprocessorKind} {scheduler : Scheduler} (wired : scheduler.shape = wiring kinds) :
    scheduler.rate .cpu = 21477272 :=
  (rate_of_placed wired rfl : _ = Clock.cpuFrequency.toNat)

theorem audio_rate {kinds : List CoprocessorKind} {scheduler : Scheduler} (wired : scheduler.shape = wiring kinds) :
    scheduler.rate .smp = 24576000 :=
  (rate_of_placed wired rfl : _ = Clock.smpFrequency.toNat)

/-- The picture is drawn in the reference's clock domain. -/
theorem picture_rate {kinds : List CoprocessorKind} {scheduler : Scheduler} (wired : scheduler.shape = wiring kinds) :
    scheduler.rate .ppu = 21477272 :=
  (rate_of_placed wired rfl : _ = Clock.cpuFrequency.toNat)

theorem shape_create {scheduler : Scheduler} {id : ThreadId} (named : ThreadId.ofIndex? scheduler.threads.size = some id)
    (frequency : UInt32) : (scheduler.create frequency).shape = scheduler.shape ++ [(id, frequency)] := by
  simp [create, named, shape, Thread.new, Clock.new]

theorem shape_createAll (frequencies : List UInt32) (names : List ThreadId) (scheduler : Scheduler)
    (same : names.length = frequencies.length)
    (named : ∀ position name, names[position]? = some name →
      ThreadId.ofIndex? (scheduler.threads.size + position) = some name) :
    (frequencies.foldl create scheduler).shape = scheduler.shape ++ names.zip frequencies := by
  -- Names are given by position, so the scheduler so far is generalized with the names that are left.
  induction frequencies generalizing names scheduler with
  | nil => simp_all
  | cons frequency rest ih =>
    cases names with
    | nil => cases same
    | cons name names =>
      have first := shape_create (named 0 name rfl) frequency
      have size : (scheduler.create frequency).threads.size = scheduler.threads.size + 1 := by
        simpa [shape] using congrArg List.length first
      rw [List.foldl_cons, ih names _ (by simpa using same), first, List.append_assoc]
      · rfl
      · intro position name placed
        rw [size, Nat.add_assoc, Nat.add_comm 1]
        exact named (position + 1) name placed

end Scheduler

theorem Board.frequencies_new (kinds : List CoprocessorKind) :
    (Board.new kinds).frequencies = (wiring kinds).map Prod.snd := by
  simp only [Board.frequencies, Board.new, wiring, List.map_cons, List.mapIdx_eq_zipIdx_map, List.map_map]
  rfl

theorem ofIndex?_of_wiring {kinds : List CoprocessorKind} (few : kinds.length ≤ Cartridge.maxCoprocessors) {position : Nat}
    {id : ThreadId} (placed : ((wiring kinds).map Prod.fst)[position]? = some id) : ThreadId.ofIndex? position = some id := by
  match position with
  | 0 | 1 | 2 =>
    cases placed
    rfl
  | position + 3 =>
    simp only [wiring, List.map_cons, List.getElem?_cons_succ, List.getElem?_map, List.getElem?_mapIdx,
      Option.map_map, Option.map_eq_some_iff] at placed
    obtain ⟨kind, placed, rfl⟩ := placed
    have inside := (List.getElem?_eq_some_iff.mp placed).1
    simp only [Cartridge.maxCoprocessors] at few
    rw [ThreadId.ofIndex?, if_pos (by omega)]
    rfl

theorem Machine.wired_new {kinds : List CoprocessorKind} (few : kinds.length ≤ Cartridge.maxCoprocessors) :
    (Machine.new kinds).scheduler.shape = wiring kinds := by
  have created := Scheduler.shape_createAll (Board.new kinds).frequencies ((wiring kinds).map Prod.fst) Scheduler.empty
    (by simp [Board.frequencies_new]) (by
      intro position name placed
      rw [show Scheduler.empty.threads.size = 0 from rfl, Nat.zero_add]
      exact ofIndex?_of_wiring few placed)
  rw [Board.frequencies_new, ← List.unzip_fst, ← List.unzip_snd, List.zip_unzip] at created
  rw [Machine.new, Board.frequencies_new, ← List.unzip_snd]
  exact created

/-- A reset brings every clock and every state back, and keeps the wiring. -/
theorem Scheduler.shape_reset (scheduler : Scheduler) : scheduler.reset.shape = scheduler.shape := by
  simp [Scheduler.reset, Scheduler.shape, Thread.reset, Clock.reset, Function.comp_def]

end MultiClock
