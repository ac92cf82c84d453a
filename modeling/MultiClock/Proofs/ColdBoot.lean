import MultiClock.Proofs.FrameBoundaries

/-! A cold boot forgets everything. What a machine is after power-on depends on its chips and on how their threads are wired, on the
seeding and on the program, and on nothing that the machine held before. -/

namespace MultiClock

open Snapshot

variable {loads : Loads} {kinds : List CoprocessorKind}

/-- Schedulers with the same threads are the same after a reset. -/
theorem Scheduler.reset_eq {one other : Scheduler} (threads : one.shape = other.shape) (entered : one.entered = other.entered) :
    one.reset = other.reset := by
  have listed : ∀ scheduler : Scheduler, scheduler.reset.threads.toList =
      scheduler.shape.map fun thread => ⟨thread.1, ⟨thread.2, 0⟩, .parked⟩ := by
    intro scheduler
    rw [reset, Array.toList_map, shape, List.map_map]
    rfl
  have same : one.reset.threads = other.reset.threads := Array.toList_inj.mp (by rw [listed, listed, threads])
  simp only [reset] at same ⊢
  rw [same, entered]

theorem Cpu.power_eq {one other : Cpu} (count : one.coprocessors = other.coprocessors) : Chip.power one = Chip.power other := by
  funext seeding
  simp only [Chip.power, power, count]

namespace Coprocessor

/-- A new coprocessor of the same kind at the same latch. -/
def renewed : Coprocessor → Coprocessor
  | multiplier unit => create .multiplier unit.index
  | rtc clock => create .rtc clock.index

theorem power_renewed (chip : Coprocessor) : Chip.power chip.renewed = Chip.power chip := by
  cases chip <;> rfl

theorem Fits.renewed_eq {kind : CoprocessorKind} {index : UInt8} {chip : Coprocessor} (fits : chip.Fits kind index) :
    chip.renewed = create kind index := by
  cases chip with
  | multiplier unit =>
    obtain ⟨rfl, rfl⟩ := fits
    rfl
  | rtc clock =>
    obtain ⟨rfl, rfl, _⟩ := fits
    rfl

end Coprocessor

namespace Board

/-- The chips are those of a new board, at any state. -/
structure Assembled (kinds : List CoprocessorKind) (board : Board) : Prop where
  count : board.cpu.coprocessors = (new kinds).cpu.coprocessors
  latches : board.bus.coprocessors.size = (new kinds).bus.coprocessors.size
  coprocessors : board.coprocessors.map Coprocessor.renewed = (new kinds).coprocessors

theorem Wired.assembled {board : Board} (wired : board.Wired kinds) : board.Assembled kinds := by
  refine ⟨wired.count, wired.latches.trans (fits_new kinds).latches.symm, Array.ext_getElem? fun position => ?_⟩
  rw [Array.getElem?_map]
  cases found : board.coprocessors[position]? with
  | none =>
    have outside := Array.getElem?_eq_none_iff.mp found
    rw [wired.chips] at outside
    rw [Array.getElem?_eq_none ((fits_new kinds).chips ▸ outside), Option.map_none]
  | some chip =>
    obtain ⟨kind, listed, fits⟩ := wired.coprocessors position chip found
    rw [Option.map_some, fits.renewed_eq, new, List.getElem?_toArray, List.getElem?_mapIdx, listed, Option.map_some]

/-- Whatever the chips of a board hold, power-on makes them what it makes of new ones. -/
theorem Assembled.power_eq {board : Board} (assembled : board.Assembled kinds) (seeding : Seeding) (program : Array UInt8) :
    board.power seeding program = (new kinds).power seeding program := by
  have latches : board.bus.coprocessors.map (fun _ => Latch.empty) = (new kinds).bus.coprocessors.map fun _ => Latch.empty := by
    rw [Array.map_const', Array.map_const', assembled.latches]
  have cpu : Chip.power board.cpu = Chip.power (new kinds).cpu := Cpu.power_eq assembled.count
  have smp : Chip.power board.smp = Chip.power (new kinds).smp := rfl
  have ppu : Chip.power board.ppu = Chip.power (new kinds).ppu := rfl
  have chips : board.coprocessors.mapM (m := StateM Seeding) Chip.power =
      (new kinds).coprocessors.mapM (m := StateM Seeding) Chip.power := by
    have each : (Chip.power ∘ Coprocessor.renewed : Coprocessor → StateM Seeding Coprocessor) = Chip.power :=
      funext Coprocessor.power_renewed
    rw [← assembled.coprocessors, Array.mapM_map, each]
  simp only [power, Bus.reset, latches, cpu, smp, ppu, chips]

end Board

namespace Machine

/-- The threads and the chips are those of a new machine, at any state between two calls of the host. -/
structure Assembled (kinds : List CoprocessorKind) (machine : Machine) : Prop where
  threads : machine.scheduler.shape = (new kinds).scheduler.shape
  entered : machine.scheduler.entered = (new kinds).scheduler.entered
  board : machine.board.Assembled kinds

theorem new_entered (kinds : List CoprocessorKind) : (new kinds).scheduler.entered = false :=
  congrArg Scheduler.entered (createAll_control (Board.new kinds).frequencies Scheduler.empty)

theorem Sound.assembled {machine : Machine} (few : kinds.length ≤ Cartridge.maxCoprocessors) (sound : machine.Sound loads kinds)
    (outside : machine.Outside) : machine.Assembled kinds :=
  ⟨sound.wired.trans (wired_new few).symm, outside.entered.trans (new_entered kinds).symm, sound.fits.wired.assembled⟩

theorem Assembled.power_eq {machine : Machine} (assembled : machine.Assembled kinds) (seeding : Seeding) (program : Array UInt8) :
    machine.power seeding program = (new kinds).power seeding program := by
  rw [power, Scheduler.reset_eq assembled.threads assembled.entered, assembled.board.power_eq]
  rfl

end Machine

namespace Console

variable {console later : Console}

/-- Measuring reads and changes the machine alone. -/
theorem snapshotSize_machine (machine : Machine) (portable : Bool) : ∃ size after, ∀ console : Console,
    console.machine = machine → console.snapshotSize portable = (size, { console with machine := after }) := by
  refine ⟨Header.byteSize + (machine.measure portable).1, (machine.measure portable).2, fun console same => ?_⟩
  rw [← same]
  exact snapshotSize_eq portable console

/-- So does writing. -/
theorem writeSnapshot_machine (machine : Machine) (portable : Bool) (description : String) : ∃ data after, ∀ console : Console,
    console.machine = machine → console.writeSnapshot portable description = (data, { console with machine := after }) := by
  obtain ⟨size, measured, sized⟩ := snapshotSize_machine machine portable
  obtain ⟨visit, visit_eq⟩ : ∃ visit, visit = @Machine.serialize := ⟨_, rfl⟩
  obtain ⟨heading, heading_eq⟩ : ∃ heading, heading = @Serializable.serialize Header _ := ⟨_, rfl⟩
  obtain ⟨written, written_eq⟩ : ∃ written,
    visit measured portable (heading (Header.new size portable description) Serializer.save).2 = written := ⟨_, rfl⟩
  refine ⟨written.2.buffer, written.1, fun console same => ?_⟩
  rw [writeSnapshot_eq, sized console same, ← visit_eq, ← heading_eq]
  simp only [written_eq]

section cartridge
variable [Host ω] {budget : Nat} {host heard : ω}

/-! No operation puts in another cartridge. -/

theorem snapshotSize_cartridge (console : Console) (portable : Bool) : (console.snapshotSize portable).2.cartridge = console.cartridge := by
  obtain ⟨size, after, sized⟩ := snapshotSize_machine console.machine portable
  rw [sized console rfl]

theorem run_cartridge (returned : console.run budget host = (.ok later, heard)) : later.cartridge = console.cartridge := by
  rw [run_eq] at returned
  obtain ⟨machine, _, _, same⟩ := Run.bind_eq_ok returned
  cases same
  rfl

theorem runToSave_cartridge {report : SaveReport} (returned : console.runToSave budget host = (.ok (report, later), heard)) :
    later.cartridge = console.cartridge := by
  rw [runToSave_eq] at returned
  obtain ⟨driving, _, _, same⟩ := Run.bind_eq_ok returned
  cases same
  rfl

theorem save_cartridge {portable : Bool} {description : String} {data : Array UInt8}
    (returned : console.save budget portable description host = (.ok (data, later), heard)) : later.cartridge = console.cartridge := by
  obtain ⟨driven, written, came⟩ := save_eq_ok returned
  have kept : driven.cartridge = console.cartridge := by
    cases portable with
    | false => exact congrArg cartridge came
    | true =>
      obtain ⟨report, told, drove⟩ := came
      exact runToSave_cartridge drove
  obtain ⟨_, _, writes⟩ := writeSnapshot_machine driven.machine portable description
  rw [writes driven rfl] at written
  rw [← (Prod.mk.inj written).2]
  exact kept

theorem load_cartridge {seed : UInt64} {data : Array UInt8} {result : Except SnapshotError Unit}
    (returned : console.load seed data host = (.ok (result, later), heard)) : later.cartridge = console.cartridge := by
  rcases load_eq_ok returned with ⟨_, _, _, ⟨_, same⟩ | ⟨_, _, same⟩⟩ | ⟨_, header, _, _, _, _, same⟩
  · rw [same]
  · rw [same, snapshotSize_cartridge]
  · obtain ⟨sized, sized_eq⟩ : ∃ sized, (console.snapshotSize header.portable).2 = sized := ⟨_, rfl⟩
    have kept := snapshotSize_cartridge console header.portable
    rw [sized_eq] at same kept
    rw [same, ← kept]

end cartridge

theorem Reached.valid (reached : console.Reached loads kinds) : console.cartridge.validate = .ok () := by
  induction reached with
  | @powered ω _ configuration cartridge seed host console carries built =>
    obtain ⟨_, same, _⟩ := new_eq_ok built
    cases valid : cartridge.validate with
    | error problem =>
      delta Console.new at built
      simp only [valid] at built
      cases built
    | ok => rw [same, valid]
  | rebooted _ ih =>
    rw [powerOn_eq]
    exact ih
  | ran _ returned ih => rw [run_cartridge returned, ih]
  | chosen _ _ ih => exact ih
  | driven _ returned ih => rw [runToSave_cartridge returned, ih]
  | measured portable _ ih => rw [snapshotSize_cartridge, ih]
  | saved _ returned ih => rw [save_cartridge returned, ih]
  | restored _ _ _ returned _ ih => rw [load_cartridge returned, ih]
  | accepted _ _ returned ih => rw [load_cartridge returned, ih]
  | refused _ returned ih => rw [load_cartridge returned, ih]
  | cheated _ _ ih => exact ih
  | cleared _ ih => exact ih

/-- A cold boot of a console, whatever was done with it and whatever was loaded into it, makes its machine what a newly built console
has, and changes nothing else. The instant snapshots of both are the same to the byte. -/
theorem Reached.boots_cold [Host ω] [Host υ] (reached : console.Reached loads kinds) (unseeded : console.configuration.entropy ≠ .high)
    (seed rest : UInt64) (host : ω) (listener : υ) :
    ∃ fresh, (Console.new console.configuration console.cartridge rest listener).1 = .ok fresh ∧
      (console.powerOn seed host).1 = { console with machine := fresh.machine } ∧
      ∀ (budget : Nat) (description : String), ∃ data heard told,
        (console.powerOn seed host).1.save budget false description host = (.ok (data, (console.powerOn seed host).1), heard) ∧
        fresh.save budget false description listener = (.ok (data, fresh), told) := by
  have steady := reached.steady
  have assembled := steady.sound.assembled steady.few steady.outside
  rw [← steady.carries] at assembled
  have boot : coldBoot console.configuration console.cartridge seed console.machine =
      coldBoot console.configuration console.cartridge 0 (Machine.new console.cartridge.coprocessors) := by
    rw [coldBoot, coldBoot, assembled.power_eq, Seeding.ofEntropy_unseeded unseeded seed 0]
  obtain ⟨fresh, fresh_eq⟩ : ∃ fresh, fresh = switchedOn console.configuration console.cartridge [] := ⟨_, rfl⟩
  have built := new_switchedOn unseeded reached.valid rest listener
  have between := @BetweenFrames.switchedOn console.configuration console.cartridge reached.valid []
  have booted : (console.powerOn seed host).1 = { console with machine := fresh.machine } := by
    rw [powerOn_eq, boot, fresh_eq]
    delta switchedOn
    rfl
  rw [← fresh_eq] at built between
  rw [booted]
  refine ⟨fresh, built, rfl, fun budget description => ?_⟩
  obtain ⟨data, written⟩ := between.writes description
  obtain ⟨_, after, writes⟩ := writeSnapshot_machine fresh.machine false description
  have again := (writes fresh rfl).symm.trans written
  obtain ⟨rfl, kept⟩ := Prod.mk.inj again
  have same : after = fresh.machine := congrArg machine kept
  have rewritten := writes { console with machine := fresh.machine } rfl
  rw [same] at rewritten
  exact ⟨_, _, _, BetweenFrames.saves rewritten budget host, BetweenFrames.saves written budget listener⟩

/-- The console in the middle of its work after a frame is booted into the console that it was before. -/
theorem Reached.boots_cold_after_frame : ∃ budget machine heard fresh, sample.run budget () = (.ok { sample with machine }, heard) ∧
    Reached .any [.multiplier, .rtc] { sample with machine } ∧ Configuration.standard.entropy ≠ .high ∧
    (Console.new Configuration.standard sample.cartridge 7 ()).1 = .ok fresh ∧
    (powerOn 5 { sample with machine } ()).1 = { sample with machine := fresh.machine } := by
  have between : sample.BetweenFrames [.multiplier, .rtc] := ⟨(sample_reached .own).steady, sample_fresh.running, sample_fresh.event⟩
  have unseeded : Configuration.standard.entropy ≠ .high := by decide
  obtain ⟨budget, enough⟩ : ∃ budget, Machine.ample 0 < budget := ⟨_, Nat.lt_succ_self _⟩
  obtain ⟨machine, heard, ran, _⟩ := between.run_returns enough ()
  have reached : Reached .any [.multiplier, .rtc] { sample with machine } := .ran (sample_reached .any) ran
  obtain ⟨fresh, built, booted, _⟩ := Reached.boots_cold reached unseeded 5 7 () ()
  exact ⟨budget, machine, heard, fresh, ran, reached, unseeded, built, booted⟩

end Console
end MultiClock
