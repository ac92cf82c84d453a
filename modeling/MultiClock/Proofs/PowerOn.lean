import MultiClock.Proofs.MachineVisits

/-! A machine right after power-on is sound: every chip is at its synchronization point, every thread is
parked there, and all clocks are level. -/

namespace MultiClock

variable {loads : Loads} {kinds : List CoprocessorKind}

/-- A machine that loads any snapshots is allowed more than one that loads only its own. -/
theorem Cpu.Fits.weaken {cpu : Cpu} {count : UInt8} (fits : cpu.Fits .own count) : cpu.Fits .any count := by
  have units := fits.units
  have rest : restUnits .own ≤ restUnits .any := by decide
  have work : workUnits .own ≤ workUnits .any := by decide
  refine ⟨fits.coprocessors, ?_⟩
  cases at_work : cpu.continuation <;> simp only [at_work] at units ⊢ <;> omega

theorem Ppu.Bounded.weaken {ppu : Ppu} (bounded : ppu.Bounded .own) : ppu.Bounded .any := by
  have line : lastLine .own ≤ lastLine .any := by decide
  simp only [Bounded] at bounded ⊢
  cases at_work : ppu.continuation <;> simp only [at_work] at bounded ⊢ <;> omega

theorem Board.Fits.weaken {board : Board} (fits : board.Fits .own kinds) : board.Fits loads kinds := by
  cases loads with
  | own => exact fits
  | any => exact ⟨fits.cpu.weaken, fits.smp, fits.ppu.weaken, fits.latches, fits.chips, fits.coprocessors⟩

theorem Machine.Sound.weaken {machine : Machine} (sound : machine.Sound .own kinds) : machine.Sound loads kinds :=
  ⟨sound.wired, sound.reference, sound.fits.weaken, sound.free, fun _ => sound.suspended rfl⟩

theorem mapM_state (visit : α → StateM σ β) (fit : α → β → Prop) (items : List α)
    (item : ∀ value state, fit value (visit value state).1) (state : σ) :
    (items.mapM visit state).1.length = items.length ∧
      ∀ (position : Nat) value, (items.mapM visit state).1[position]? = some value →
        ∃ before, items[position]? = some before ∧ fit before value := by
  induction items generalizing state with
  | nil =>
    refine ⟨rfl, fun _ _ found => ?_⟩
    cases found
  | cons first rest ih =>
    rw [List.mapM_cons]
    obtain ⟨length, fits⟩ := ih (visit first state).2
    refine ⟨congrArg Nat.succ length, fun position value found => ?_⟩
    cases position with
    | zero =>
      cases found
      exact ⟨first, rfl, item first state⟩
    | succ position => exact fits position value found

theorem Smp.bounded_new : Smp.new.Bounded := ⟨(by decide : (0 : UInt32) < sampleUnits), Nat.zero_le _⟩

theorem Smp.power_rests (smp : Smp) (seeding : Seeding) :
    (Chip.power smp seeding).1.Bounded ∧ (Chip.power smp seeding).1.workload = .idle := by
  simp only [Chip.power, power]
  exact ⟨⟨bounded_new.elapsed, bounded_new.samples⟩, rfl⟩

theorem Cpu.power_rests (cpu : Cpu) (seeding : Seeding) :
    (Chip.power cpu seeding).1.coprocessors = cpu.coprocessors ∧ (Chip.power cpu seeding).1.catchupUnits = 0 ∧
      (Chip.power cpu seeding).1.continuation = .idle := ⟨rfl, rfl, rfl⟩

theorem Ppu.bounded_new : Ppu.new.Bounded loads := Nat.zero_le _

theorem Rtc.early_zero : (0 : UInt16).toUInt32 < frequency := by decide

namespace Board

/-- The chips are those of a list of coprocessors, whatever their registers hold. -/
structure Wired (kinds : List CoprocessorKind) (board : Board) : Prop where
  count : board.cpu.coprocessors = UInt8.ofNat kinds.length
  latches : board.bus.coprocessors.size = kinds.length
  chips : board.coprocessors.size = kinds.length
  coprocessors : ∀ (position : Nat) (chip : Coprocessor), board.coprocessors[position]? = some chip →
    ∃ kind, kinds[position]? = some kind ∧ chip.Fits kind (UInt8.ofNat position)

theorem Fits.wired {board : Board} (fits : board.Fits loads kinds) : board.Wired kinds :=
  ⟨fits.cpu.coprocessors, fits.latches, fits.chips, fits.coprocessors⟩

theorem fits_new (kinds : List CoprocessorKind) : (Board.new kinds).Fits .own kinds := by
  refine ⟨⟨rfl, Nat.zero_le _⟩, Smp.bounded_new, Ppu.bounded_new, ?_, ?_, fun position chip found => ?_⟩
  · simp [Board.new, Bus.new]
  · simp [Board.new]
  · simp only [Board.new, List.getElem?_toArray, List.getElem?_mapIdx, Option.map_eq_some_iff] at found
    obtain ⟨kind, listed, rfl⟩ := found
    refine ⟨kind, listed, ?_⟩
    cases kind with
    | multiplier => exact ⟨rfl, rfl⟩
    | rtc => exact ⟨rfl, rfl, Rtc.early_zero⟩

theorem coprocessor_power {kind : CoprocessorKind} {index : UInt8} {chip : Coprocessor} (fits : chip.Fits kind index)
    (seeding : Seeding) : (Chip.power chip seeding).1.Fits kind index ∧ (Chip.power chip seeding).1.workload = .idle := by
  cases chip with
  | multiplier unit => exact ⟨⟨fits.1, fits.2⟩, rfl⟩
  | rtc clock => exact ⟨⟨fits.1, fits.2.index, Rtc.early_zero⟩, rfl⟩

/-- At power-on every chip is at its synchronization point. -/
theorem power_fits {board : Board} (wired : board.Wired kinds) (seeding : Seeding) (program : Array UInt8) :
    (board.power seeding program).Fits .own kinds ∧ ∀ id, (board.power seeding program).Rested id := by
  have powered : ∀ seeding : Seeding,
      (board.coprocessors.mapM (m := StateM Seeding) Chip.power seeding).1.size = kinds.length ∧
        ∀ (position : Nat) chip, (board.coprocessors.mapM (m := StateM Seeding) Chip.power seeding).1[position]? = some chip →
          ∃ kind, kinds[position]? = some kind ∧ chip.Fits kind (UInt8.ofNat position) ∧ chip.workload = .idle := by
    intro seeding
    obtain ⟨length, each⟩ := mapM_state (Chip.power : Coprocessor → StateM Seeding Coprocessor)
      (fun before after => ∀ kind index, before.Fits kind index → after.Fits kind index ∧ after.workload = .idle)
      board.coprocessors.toList (fun chip state kind index fits => coprocessor_power fits state) seeding
    rw [← Array.toList_mapM] at length each
    refine ⟨length.trans wired.chips, fun position chip found => ?_⟩
    obtain ⟨before, placed, fits⟩ := each position chip (by rw [← found]; exact Array.getElem?_toList)
    obtain ⟨kind, listed, fit⟩ := wired.coprocessors position before (by rwa [Array.getElem?_toList] at placed)
    exact ⟨kind, listed, fits kind _ fit⟩
  -- One chip after the other draws from the entropy, so every seeding in between is given a name.
  simp only [power]
  generalize seeding.memory 0x2000 = memory
  obtain ⟨wram, seeding⟩ := memory
  have cpu := board.cpu.power_rests seeding
  generalize Chip.power board.cpu seeding = first at cpu ⊢
  obtain ⟨first, seeding⟩ := first
  have smp := board.smp.power_rests seeding
  generalize Chip.power board.smp seeding = second at smp ⊢
  obtain ⟨second, seeding⟩ := second
  have others := powered (Chip.power board.ppu seeding).2
  generalize board.coprocessors.mapM (m := StateM Seeding) Chip.power (Chip.power board.ppu seeding).2 = last at others ⊢
  obtain ⟨coprocessors, seeding⟩ := last
  obtain ⟨count, units, idle⟩ := cpu
  refine ⟨⟨⟨count.trans wired.count, ?_⟩, smp.1, Ppu.bounded_new, ?_, others.1, ?_⟩, fun id => ?_⟩
  · simp only at idle units ⊢
    simp only [idle, units]
    exact Nat.zero_le _
  · exact (Array.size_map).trans wired.latches
  · intro position chip found
    obtain ⟨kind, listed, fit, _⟩ := others.2 position chip found
    exact ⟨kind, listed, fit⟩
  · cases id with
    | cpu => exact idle
    | smp => exact smp.2
    | ppu => rfl
    | coprocessor index =>
      cases found : coprocessors[index.toNat]? with
      | none => simp [Rested, workload, found]
      | some chip =>
        obtain ⟨_, _, _, rests⟩ := others.2 index.toNat chip found
        simp [Rested, workload, found, rests]

end Board

namespace Machine

/-- A machine right after power-on. -/
structure Fresh (kinds : List CoprocessorKind) (machine : Machine) : Prop where
  sound : machine.Sound .own kinds
  rested : ∀ id, machine.board.Rested id
  mode : machine.scheduler.mode = .run
  event : machine.scheduler.event = .frame
  active : machine.scheduler.active = .cpu
  entered : machine.scheduler.entered = false
  desynchronized : machine.scheduler.desynchronized = false
  transfer : machine.scheduler.transfer = none
  parked : ∀ id state, machine.scheduler.state? id = some state → state = .parked
  level : ∀ id, machine.scheduler.time id = 0

theorem power_fresh {machine : Machine} (wired : machine.scheduler.shape = wiring kinds) (board : machine.board.Wired kinds)
    (outside : machine.scheduler.entered = false) (seeding : Seeding) (program : Array UInt8) :
    (machine.power seeding program).Fresh kinds := by
  obtain ⟨fits, rested⟩ := Board.power_fits board seeding program
  have reset : ∀ id, machine.scheduler.reset.thread? id = (machine.scheduler.thread? id).map Thread.reset := fun id => by
    rw [Scheduler.thread?, Scheduler.reset, Array.getElem?_map]
    rfl
  have level : ∀ id, machine.scheduler.reset.time id = 0 := fun id => by
    rw [Scheduler.time, reset]
    cases machine.scheduler.thread? id <;> rfl
  refine ⟨⟨machine.scheduler.shape_reset.trans wired, level .cpu, fits, fun _ => rfl, fun _ id _ _ _ => rested id⟩, rested,
    rfl, rfl, rfl, outside, rfl, rfl, fun id state found => ?_, level⟩
  obtain ⟨thread, placed, rfl⟩ := Option.map_eq_some_iff.mp found
  obtain ⟨before, _, rfl⟩ := Option.map_eq_some_iff.mp ((reset id).symm.trans placed)
  rfl

/-- A machine with other contents of its memories. -/
def holding (wram : Vector UInt8 0x2000) (ram : Vector UInt8 0x1000) (machine : Machine) : Machine :=
  { machine with board := { machine.board with
      bus := { machine.board.bus with wram }
      smp := { machine.board.smp with ram } } }

/-- Whatever its memories hold, a machine is fresh. -/
theorem Fresh.holding {machine : Machine} (fresh : machine.Fresh kinds) (wram : Vector UInt8 0x2000) (ram : Vector UInt8 0x1000) :
    (machine.holding wram ram).Fresh kinds := by
  obtain ⟨⟨wired, reference, fits, free, _⟩, rested, mode, event, active, entered, desynchronized, transfer, parked, level⟩ := fresh
  have rested : ∀ id, (machine.holding wram ram).board.Rested id := by
    intro id
    have before := rested id
    cases id <;> exact before
  have fits : (machine.holding wram ram).board.Fits .own kinds :=
    ⟨fits.cpu, ⟨fits.smp.elapsed, fits.smp.samples⟩, fits.ppu, fits.latches, fits.chips, fits.coprocessors⟩
  exact ⟨⟨wired, reference, fits, free, fun _ id _ _ _ => rested id⟩, rested, mode, event, active, entered, desynchronized,
    transfer, parked, level⟩

theorem createAll_control (frequencies : List UInt32) (scheduler : Scheduler) :
    frequencies.foldl Scheduler.create scheduler =
      { scheduler with threads := (frequencies.foldl Scheduler.create scheduler).threads } := by
  induction frequencies generalizing scheduler with
  | nil => rfl
  | cons frequency rest ih =>
    rw [List.foldl_cons, ih, Scheduler.create]
    split <;> rfl

theorem new_fresh (few : kinds.length ≤ Cartridge.maxCoprocessors) (seeding : Seeding) (program : Array UInt8) :
    ((Machine.new kinds).power seeding program).Fresh kinds :=
  power_fresh (wired_new few) (Board.fits_new kinds).wired (congrArg Scheduler.entered (createAll_control _ _)) seeding program

end Machine
end MultiClock
