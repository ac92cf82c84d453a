import MultiClock.Proofs.SnapshotLoads

/-! The consoles that a user can come to: powered on, run, driven to saves, saved, loaded and given cheats,
in any order. The machine of such a console is sound, and it is back with the host in normal execution. -/

namespace MultiClock

open Visit Snapshot

variable {loads : Loads} {kinds : List CoprocessorKind}

namespace Console

section equations
variable [Host ω]

theorem run_eq (budget : Nat) (console : Console) : (console.run budget : Run ω Console) = do
    let machine ← console.machine.run budget console.cheats
    return { console with machine } := rfl

theorem runToSave_eq (budget : Nat) (console : Console) : (console.runToSave budget : Run ω (SaveReport × Console)) = do
    let driving ← Save.runToSave (Board.completeFrame console.cheats) budget console.method console.machine.scheduler
      console.machine.board
    return (driving.report, { console with machine := ⟨driving.scheduler, driving.chips⟩ }) := rfl

end equations

/-- The consoles that can be come to from power-on. Snapshots are always those of such consoles, or, for
`Loads.any`, any bytes that are accepted. -/
inductive Reached (loads : Loads) (kinds : List CoprocessorKind) : Console → Prop
  | powered {ω : Type} [Host ω] {configuration : Configuration} {cartridge : Cartridge} {seed : UInt64} {host : ω}
      {console : Console} (carries : cartridge.coprocessors = kinds)
      (built : (Console.new configuration cartridge seed host).1 = .ok console) : Reached loads kinds console
  | rebooted {ω : Type} [Host ω] {console : Console} {seed : UInt64} {host : ω} (reached : Reached loads kinds console) :
      Reached loads kinds (console.powerOn seed host).1
  | ran {ω : Type} [Host ω] {console later : Console} {budget : Nat} {host heard : ω} (reached : Reached loads kinds console)
      (returned : console.run budget host = (.ok later, heard)) : Reached loads kinds later
  | chosen {console : Console} (method : SaveMethod) (reached : Reached loads kinds console) :
      Reached loads kinds { console with method }
  | driven {ω : Type} [Host ω] {console later : Console} {budget : Nat} {report : SaveReport} {host heard : ω}
      (reached : Reached loads kinds console) (returned : console.runToSave budget host = (.ok (report, later), heard)) :
      Reached loads kinds later
  | measured {console : Console} (portable : Bool) (reached : Reached loads kinds console) :
      Reached loads kinds (console.snapshotSize portable).2
  | saved {ω : Type} [Host ω] {console later : Console} {budget : Nat} {portable : Bool} {description : String}
      {data : Array UInt8} {host heard : ω} (reached : Reached loads kinds console)
      (returned : console.save budget portable description host = (.ok (data, later), heard)) : Reached loads kinds later
  | restored {ω υ : Type} [Host ω] [Host υ] {writer console later last : Console} {budget : Nat} {portable : Bool}
      {description : String} {data : Array UInt8} {seed : UInt64} {host heard : ω} {listener told : υ}
      (wrote : Reached loads kinds writer) (reached : Reached loads kinds console)
      (written : writer.save budget portable description host = (.ok (data, later), heard))
      (returned : console.load seed data listener = (.ok (.ok (), last), told)) : Reached loads kinds last
  | accepted {ω : Type} [Host ω] {console later : Console} {data : Array UInt8} {seed : UInt64} {host heard : ω}
      (anything : loads = .any) (reached : Reached loads kinds console)
      (returned : console.load seed data host = (.ok (.ok (), later), heard)) : Reached loads kinds later
  | refused {ω : Type} [Host ω] {console later : Console} {data : Array UInt8} {seed : UInt64} {problem : SnapshotError}
      {host heard : ω} (reached : Reached loads kinds console)
      (returned : console.load seed data host = (.ok (.error problem, later), heard)) : Reached loads kinds later
  | cheated {console : Console} (cheat : Cheat) (reached : Reached loads kinds console) :
      Reached loads kinds (console.addCheat cheat)
  | cleared {console : Console} (reached : Reached loads kinds console) : Reached loads kinds console.clearCheats

/-- What every such console is: its machine is sound and outside with a thread to go on with, and has the cartridge's
coprocessors. -/
structure Steady (loads : Loads) (kinds : List CoprocessorKind) (console : Console) : Prop where
  sound : console.machine.Sound loads kinds
  outside : console.machine.Outside
  directed : console.machine.Directed
  carries : console.cartridge.coprocessors = kinds
  few : kinds.length ≤ Cartridge.maxCoprocessors

end Console

namespace Machine

theorem Fresh.outside {machine : Machine} (fresh : machine.Fresh kinds) : machine.Outside := ⟨fresh.entered, fresh.mode⟩

theorem Fresh.directed {machine : Machine} (fresh : machine.Fresh kinds) : machine.Directed := by
  have size := Scheduler.size_of_wiring fresh.sound.wired
  refine ⟨?_, fun target asked => ?_⟩
  · rw [fresh.active, size]
    exact Nat.zero_lt_of_lt (Nat.lt_add_right _ (by decide : 0 < 3))
  · rw [fresh.transfer] at asked
    cases asked

theorem Fresh.near {machine : Machine} (fresh : machine.Fresh kinds) (id : ThreadId) : machine.Near id := by
  intro thread found
  have level := fresh.level id
  rw [Scheduler.time_eq found] at level
  rw [Thread.Near, Thread.distance, level]
  decide

theorem Directed.withEvent {machine : Machine} (directed : machine.Directed) (event : Event) :
    (machine.withEvent event).Directed := ⟨directed.active, directed.target⟩

theorem Sound.withEvent {machine : Machine} (sound : machine.Sound loads kinds) (event : Event) :
    (machine.withEvent event).Sound loads kinds := sound.withScheduler rfl sound.free

theorem Outside.withEvent {machine : Machine} (outside : machine.Outside) (event : Event) : (machine.withEvent event).Outside :=
  ⟨outside.entered, outside.mode⟩

theorem Sound.reboot {machine : Machine} (sound : machine.Sound loads kinds) (outside : machine.Outside) (seeding : Seeding)
    (program : Array UInt8) : (machine.power seeding program).Fresh kinds :=
  power_fresh sound.wired sound.fits.wired outside.entered seeding program

end Machine

namespace Console

variable {console later : Console}

theorem Steady.withMachine (steady : console.Steady loads kinds) {machine : Machine} (sound : machine.Sound loads kinds)
    (outside : machine.Outside) (directed : machine.Directed) : Steady loads kinds { console with machine } :=
  ⟨sound, outside, directed, steady.carries, steady.few⟩

theorem Steady.measured (steady : console.Steady loads kinds) (portable : Bool) :
    (console.snapshotSize portable).2.Steady loads kinds := by
  obtain ⟨_, visited⟩ := Console.measured portable steady.sound
  rw [snapshotSize_eq]
  exact steady.withMachine (steady.sound.renewed (fun _ => by decide) visited.toRenewed) (steady.outside.visited visited)
    (steady.directed.visited steady.sound.wired visited)

theorem Steady.measured_size (steady : console.Steady loads kinds) (portable : Bool) :
    (console.snapshotSize portable).1 = Header.byteSize + Machine.visitSize kinds portable := by
  rw [snapshotSize_eq, (Console.measured portable steady.sound).1]

theorem Steady.run [Host ω] (steady : console.Steady loads kinds) {budget : Nat} {host heard : ω}
    (returned : console.run budget host = (.ok later, heard)) : later.Steady loads kinds := by
  rw [run_eq] at returned
  obtain ⟨machine, _, ran, same⟩ := Run.bind_eq_ok returned
  obtain ⟨through, outside, mode⟩ :=
    (Machine.run_through steady.few steady.sound budget console.cheats .here).of_ok ran
  cases same
  exact steady.withMachine (steady.sound.through steady.few through) ⟨outside, mode.trans steady.outside.mode⟩
    (steady.directed.through steady.few steady.sound through)

theorem Steady.runToSave [Host ω] (steady : console.Steady loads kinds) {budget : Nat} {report : SaveReport} {host heard : ω}
    (returned : console.runToSave budget host = (.ok (report, later), heard)) : later.Steady loads kinds := by
  rw [runToSave_eq] at returned
  obtain ⟨driving, _, drove, same⟩ := Run.bind_eq_ok returned
  have indexed := Scheduler.indexed_of_wiring steady.few steady.sound.wired
  have through := (Machine.runToSave_through steady.few steady.sound console.cheats budget console.method).of_ok drove
  have delivered := (Save.runToSave_delivers Board.disciplined (.anything _) console.method indexed
    console.machine.board trivial).of_ok drove
  cases same
  exact steady.withMachine (steady.sound.through steady.few through) ⟨delivered.outside, delivered.mode⟩
    (steady.directed.through steady.few steady.sound through)

/-- The end of a save: the host is told what was written. -/
def handOver [Host ω] (portable : Bool) : Array UInt8 × Console → Run ω (Array UInt8 × Console)
  | (data, console) => do
    Run.report (.saved portable console.machine.board.frame data.size)
    return (data, console)

theorem save_eq [Host ω] (console : Console) (budget : Nat) (portable : Bool) (description : String) :
    (console.save budget portable description : Run ω (Array UInt8 × Console)) =
      (if portable then Prod.snd <$> console.runToSave budget else pure console) >>= fun driven =>
        handOver portable (driven.writeSnapshot portable description) := by
  obtain ⟨writing, writing_eq⟩ : ∃ writing, writing = @writeSnapshot := ⟨_, rfl⟩
  delta save
  rw [← writing_eq]
  cases portable <;> rfl

theorem handOver_eq_ok [Host ω] {portable : Bool} {written : Array UInt8 × Console} {data : Array UInt8} {host heard : ω}
    (returned : (handOver portable written : Run ω (Array UInt8 × Console)) host = (.ok (data, later), heard)) :
    written = (data, later) := by
  obtain ⟨_, _⟩ := written
  cases returned
  rfl

/-- What is written is the machine as it is, or as it was driven. -/
theorem save_eq_ok [Host ω] {budget : Nat} {portable : Bool} {description : String} {data : Array UInt8} {host heard : ω}
    (returned : console.save budget portable description host = (.ok (data, later), heard)) :
    ∃ driven : Console, driven.writeSnapshot portable description = (data, later) ∧
      if portable then ∃ report told, (console.runToSave budget : Run ω (SaveReport × Console)) host = (.ok (report, driven), told)
      else driven = console := by
  rw [save_eq] at returned
  obtain ⟨driven, told, first, rest⟩ := Run.bind_eq_ok returned
  refine ⟨driven, handOver_eq_ok rest, ?_⟩
  cases portable with
  | false =>
    rw [if_neg Bool.false_ne_true] at first
    cases first
    rfl
  | true =>
    rw [if_pos rfl] at first
    obtain ⟨⟨report, driven⟩, drove, rfl⟩ := Run.map_eq_ok first
    exact ⟨report, told, drove⟩

/-- Writing changes no more than a visit that measures and one that saves do. -/
theorem writeSnapshot_visits {portable : Bool} {description : String} {data : Array UInt8}
    (sound : console.machine.Sound loads kinds) (written : console.writeSnapshot portable description = (data, later)) :
    ∃ middle last, Machine.Visited .measure loads kinds portable console.machine middle ∧
      Machine.Visited .save loads kinds portable middle last ∧ later = { console with machine := last } := by
  have measuring : Permitted loads .measure := fun _ => by decide
  have saving : Permitted loads .save := fun _ => by decide
  obtain ⟨_, visited⟩ := measured portable sound
  obtain ⟨middle, sized⟩ : ∃ middle, (console.machine.measure portable).2 = middle := ⟨_, rfl⟩
  rw [writeSnapshot_eq, snapshotSize_eq] at written
  rw [sized] at visited written
  simp only at written
  have heads : Yields .save Header.byteSize _ fun _ => True :=
    Header.yields (Header.new (Header.byteSize + (console.machine.measure portable).1) portable description)
  have headed := heads Serializer.save rfl
  generalize (Serializable.serialize (Header.new (Header.byteSize + (console.machine.measure portable).1) portable description)
    Serializer.save).2 = s at headed written
  have visits := (Machine.serialize_yields saving portable (sound.renewed measuring visited.toRenewed) s headed.2.2).1
  generalize (middle.serialize portable s).1 = last at visits written
  exact ⟨middle, last, visited, visits, (Prod.mk.inj written).2.symm⟩

theorem Steady.writeSnapshot (steady : console.Steady loads kinds) {portable : Bool} {description : String}
    {data : Array UInt8} (written : console.writeSnapshot portable description = (data, later)) : later.Steady loads kinds := by
  obtain ⟨middle, last, measured, saved, rfl⟩ := writeSnapshot_visits steady.sound written
  have sound := steady.sound.renewed (fun _ => by decide) measured.toRenewed
  exact steady.withMachine (sound.renewed (fun _ => by decide) saved.toRenewed)
    ((steady.outside.visited measured).visited saved)
    ((steady.directed.visited steady.sound.wired measured).visited sound.wired saved)

/-- A steady console is driven to another one, which is then written. -/
theorem Steady.save_drives [Host ω] (steady : console.Steady loads kinds) {budget : Nat} {portable : Bool} {description : String}
    {data : Array UInt8} {host heard : ω} (returned : console.save budget portable description host = (.ok (data, later), heard)) :
    ∃ driven : Console, driven.Steady loads kinds ∧ driven.writeSnapshot portable description = (data, later) := by
  obtain ⟨driven, written, came⟩ := save_eq_ok returned
  refine ⟨driven, ?_, written⟩
  cases portable with
  | false => exact came ▸ steady
  | true =>
    obtain ⟨report, told, drove⟩ := came
    exact steady.runToSave drove

theorem Steady.save [Host ω] (steady : console.Steady loads kinds) {budget : Nat} {portable : Bool} {description : String}
    {data : Array UInt8} {host heard : ω} (returned : console.save budget portable description host = (.ok (data, later), heard)) :
    later.Steady loads kinds := by
  obtain ⟨driven, drove, written⟩ := steady.save_drives returned
  exact drove.writeSnapshot written

/-- A load either ends with an error, after which the machine is as it was or, once the header is known, was measured; or it ends with a
machine in the place of the old one. -/
theorem load_eq_ok [Host ω] {seed : UInt64} {data : Array UInt8} {result : Except SnapshotError Unit} {host heard : ω}
    (returned : console.load seed data host = (.ok (result, later), heard)) :
    (∃ problem, result = .error problem ∧ heard = host ∧ (Header.parse data = .error problem ∧ later = console ∨
      ∃ header, Header.parse data = .ok header ∧ later = (console.snapshotSize header.portable).2)) ∨
      result = .ok () ∧ ∃ header machine settled, readBody seed (console.snapshotSize header.portable).2 header data = .ok machine ∧
        settleLoaded header.portable machine = .ok settled ∧
        later = { (console.snapshotSize header.portable).2 with machine := settled } := by
  obtain ⟨ended, notices, ends⟩ := console.load_ends seed data
  rw [ends.load_eq host] at returned
  cases ends with
  | unreadable parsed =>
    cases returned
    exact .inl ⟨_, rfl, rfl, .inl ⟨parsed, rfl⟩⟩
  | refused parsed =>
    cases returned
    exact .inl ⟨_, rfl, rfl, .inr ⟨_, parsed, rfl⟩⟩
  | unsettled => cases returned
  | accepted parsed found settles =>
    cases returned
    exact .inr ⟨rfl, _, _, _, Except.seqRight_eq_ok found, settles, rfl⟩

/-- An accepted body was read into a machine right after power-on. -/
theorem readBody_eq_ok {seed : UInt64} {header : Header} {data : Array UInt8} {machine : Machine}
    (accepted : readBody seed console header data = .ok machine) :
    ∃ s : Serializer, s.mode = .load ∧ machine = ((coldBoot console.configuration console.cartridge seed
      (Machine.new console.cartridge.coprocessors)).serialize header.portable s).1 := by
  rw [readBody_accepts] at accepted
  have headed : Yields .load Header.byteSize (Serializable.serialize (Header.new 0 false "")) fun _ => True := Header.yields _
  exact ⟨_, (headed (Serializer.load data) rfl).2.2, acceptBody_eq_ok accepted⟩

/-- The machine in any accepted body comes of a visit of a machine that was just powered on. -/
theorem readBody_visited {seed : UInt64} {header : Header} {data : Array UInt8} {machine : Machine}
    (few : kinds.length ≤ Cartridge.maxCoprocessors) (carries : console.cartridge.coprocessors = kinds)
    (accepted : readBody seed console header data = .ok machine) :
    ∃ base : Machine, base.Fresh kinds ∧ Machine.Visited .load .any kinds header.portable base machine := by
  obtain ⟨s, loading, same⟩ := readBody_eq_ok accepted
  have fresh : (coldBoot console.configuration console.cartridge seed (Machine.new console.cartridge.coprocessors)).Fresh kinds := by
    rw [carries]
    exact Machine.new_fresh few (Seeding.ofEntropy console.configuration.entropy seed) console.cartridge.program
  obtain ⟨base, base_eq⟩ : ∃ base, coldBoot console.configuration console.cartridge seed
    (Machine.new console.cartridge.coprocessors) = base := ⟨_, rfl⟩
  rw [base_eq] at same fresh
  have yields := Machine.serialize_yields (by simp [Permitted] : Permitted .any .load) header.portable fresh.sound.weaken
  obtain ⟨visit, visit_eq⟩ : ∃ visit, base.serialize header.portable = visit := ⟨_, rfl⟩
  rw [visit_eq] at same yields
  refine ⟨base, fresh, ?_⟩
  rw [same]
  exact (yields s loading).1

/-- The machine in any accepted body is sound, and its chips may be in the middle of anything. -/
theorem readBody_sound {seed : UInt64} {header : Header} {data : Array UInt8} {machine : Machine}
    (few : kinds.length ≤ Cartridge.maxCoprocessors) (carries : console.cartridge.coprocessors = kinds)
    (accepted : readBody seed console header data = .ok machine) :
    machine.Sound .any kinds ∧ machine.Outside ∧ machine.Directed ∧ ∀ id, machine.Near id := by
  obtain ⟨base, fresh, visited⟩ := readBody_visited few carries accepted
  have sound : base.Sound .any kinds := fresh.sound.weaken
  exact ⟨sound.renewed (by simp [Permitted]) visited.toRenewed, fresh.outside.visited visited,
    fresh.directed.visited fresh.sound.wired visited, visited.near⟩

/-- The machine in any accepted body can be settled: it is outside the simulation and has a reference. -/
theorem readBody_settled {seed : UInt64} {header : Header} {data : Array UInt8} {machine : Machine}
    (few : kinds.length ≤ Cartridge.maxCoprocessors) (carries : console.cartridge.coprocessors = kinds)
    (accepted : readBody seed console header data = .ok machine) (portable : Bool) :
    ∃ settled, settleLoaded portable machine = .ok settled := by
  obtain ⟨sound, outside, _⟩ := readBody_sound few carries accepted
  have some_thread : 0 < machine.scheduler.threads.size := by
    rw [Scheduler.size_of_wiring sound.wired]
    omega
  exact ⟨_, settleLoaded_eq outside.entered some_thread⟩

/-- Parking every thread of a machine whose chips are all without work, or leaving them as they are. -/
theorem settleLoaded_sound {portable : Bool} {machine settled : Machine} (sound : machine.Sound .any kinds)
    (outside : machine.Outside) (directed : machine.Directed) (settles : settleLoaded portable machine = .ok settled) :
    (settled.Sound .any kinds ∧ settled.Outside ∧ settled.Directed) ∧ settled.board = machine.board ∧
      ∀ id, settled.scheduler.time id = machine.scheduler.time id := by
  obtain ⟨scheduler, board⟩ := machine
  have some_thread : 0 < scheduler.threads.size := by
    rw [Scheduler.size_of_wiring sound.wired]
    omega
  rw [settleLoaded_eq outside.entered some_thread] at settles
  cases settles
  cases portable with
  | false => exact ⟨⟨sound, outside, directed⟩, rfl, fun _ => rfl⟩
  | true =>
    have size : scheduler.parkAll.threads.size = scheduler.threads.size := by simp [Scheduler.parkAll]
    have times : ∀ id, ({ scheduler.parkAll with active := .cpu } : Scheduler).time id = scheduler.time id := by
      intro id
      simp only [Scheduler.time, Scheduler.thread?, Scheduler.parkAll, Array.getElem?_map]
      cases scheduler.threads[id.index]? <;> rfl
    simp only [if_true]
    refine ⟨⟨⟨?_, (times .cpu).trans sound.reference, sound.fits, sound.free, by simp⟩, ⟨outside.entered, outside.mode⟩,
      ⟨size ▸ some_thread, fun target asked => size ▸ directed.target target asked⟩⟩, trivial, times⟩
    rw [← sound.wired]
    simp [Scheduler.shape, Scheduler.parkAll, Thread.park, Function.comp_def]

theorem Steady.load [Host ω] (steady : console.Steady loads kinds) {seed : UInt64} {data : Array UInt8}
    {result : Except SnapshotError Unit} {host heard : ω} (returned : console.load seed data host = (.ok (result, later), heard))
    (anything : result = .ok () → loads = .any) : later.Steady loads kinds := by
  rcases load_eq_ok returned with ⟨_, _, _, ⟨_, same⟩ | ⟨header, _, same⟩⟩ | ⟨accepted, header, machine, settled, body, settles, same⟩
  · exact same ▸ steady
  · rw [same]
    exact steady.measured header.portable
  · cases anything accepted
    have measured := steady.measured header.portable
    obtain ⟨sized, sized_eq⟩ : ∃ sized, (console.snapshotSize header.portable).2 = sized := ⟨_, rfl⟩
    rw [sized_eq] at measured body same
    obtain ⟨sound, outside, directed, _⟩ := readBody_sound measured.few measured.carries body
    obtain ⟨⟨sound, outside, directed⟩, _⟩ := settleLoaded_sound sound outside directed settles
    rw [same]
    exact measured.withMachine sound outside directed

/-- What a console saves is settled if the snapshot is to be portable. -/
theorem save_settles [Host ω] (steady : console.Steady .own kinds) {budget : Nat} {portable : Bool} {description : String}
    {data : Array UInt8} {host heard : ω} (returned : console.save budget portable description host = (.ok (data, later), heard)) :
    ∃ driven : Console, driven.Steady .own kinds ∧ driven.writeSnapshot portable description = (data, later) ∧
      (portable = true → driven.machine.Settled) ∧ (portable = false → driven = console) := by
  obtain ⟨driven, written, came⟩ := save_eq_ok returned
  cases portable with
  | false => exact ⟨driven, came ▸ steady, written, by simp, fun _ => came⟩
  | true =>
    obtain ⟨report, told, drove⟩ := came
    refine ⟨driven, steady.runToSave drove, written, fun _ => ?_, by simp⟩
    rw [runToSave_eq] at drove
    obtain ⟨driving, _, drove, same⟩ := Run.bind_eq_ok drove
    cases same
    exact ((Machine.runToSave_settles steady.few steady.sound console.cheats budget console.method).of_ok drove).2.2

/-- A machine with a snapshot of a steady console in it. -/
theorem Steady.restored [Host ω] {writer driven : Console} (wrote : writer.Steady .own kinds) (steady : console.Steady loads kinds)
    {portable : Bool} {description : String} {data : Array UInt8} {seed : UInt64} {host heard : ω}
    (settled : portable = true → writer.machine.Settled)
    (written : writer.writeSnapshot portable description = (data, driven))
    (returned : console.load seed data host = (.ok (.ok (), later), heard)) : later.Steady loads kinds := by
  obtain ⟨visited, _, told, loaded⟩ :=
    load_written wrote.few wrote.sound wrote.outside settled steady.sound steady.carries written seed host
  rw [loaded] at returned
  have sound := wrote.sound.renewed (fun _ => by decide) visited.toRenewed
  obtain ⟨same, _⟩ := Prod.mk.inj returned
  injection same with same
  rw [← (Prod.mk.inj same).2]
  have outside := wrote.outside.visited visited
  have directed := wrote.directed.visited wrote.sound.wired visited
  exact steady.withMachine (sound.withEvent .frame).weaken (outside.withEvent .frame) (directed.withEvent .frame)

theorem powerOn_eq [Host ω] (seed : UInt64) (host : ω) : (console.powerOn seed host).1 =
    { console with machine := coldBoot console.configuration console.cartridge seed console.machine } := by
  obtain ⟨boot, boot_eq⟩ : ∃ boot, boot = @coldBoot := ⟨_, rfl⟩
  delta powerOn
  rw [← boot_eq]
  rfl

theorem new_eq [Host ω] {cartridge : Cartridge} (valid : cartridge.validate = .ok ()) (configuration : Configuration)
    (seed : UInt64) (host : ω) : (Console.new configuration cartridge seed host).1 =
      .ok ⟨configuration, cartridge, (configuration.announceMethod cartridge.title host).1,
        coldBoot configuration cartridge seed (Machine.new cartridge.coprocessors), []⟩ := by
  obtain ⟨power, power_eq⟩ : ∃ power, power = @powerOn ω _ := ⟨_, rfl⟩
  delta Console.new
  rw [← power_eq, valid]
  change Except.ok (power seed ⟨configuration, cartridge, (configuration.announceMethod cartridge.title host).1,
    Machine.new cartridge.coprocessors, []⟩ (configuration.announceMethod cartridge.title host).2).1 = _
  rw [power_eq, powerOn_eq]

/-- A console is built only for a cartridge that is not too large, and it starts powered on. -/
theorem new_eq_ok [Host ω] {configuration : Configuration} {cartridge : Cartridge} {seed : UInt64} {host : ω}
    (built : (Console.new configuration cartridge seed host).1 = .ok console) :
    cartridge.coprocessors.length ≤ Cartridge.maxCoprocessors ∧ console.cartridge = cartridge ∧
      console.machine = coldBoot configuration cartridge seed (Machine.new cartridge.coprocessors) := by
  cases valid : cartridge.validate with
  | error problem =>
    delta Console.new at built
    simp only [valid] at built
    cases built
  | ok =>
    rw [new_eq valid] at built
    rw [← Except.ok.inj built]
    refine ⟨Nat.le_of_not_lt fun many => ?_, rfl, rfl⟩
    rw [Cartridge.validate, if_pos many] at valid
    cases valid

theorem Reached.steady (reached : console.Reached loads kinds) : console.Steady loads kinds := by
  induction reached with
  | @powered ω _ configuration cartridge seed host console carries built =>
    obtain ⟨few, same, machine⟩ := new_eq_ok built
    rw [carries] at few machine
    have fresh : console.machine.Fresh kinds := by
      rw [machine]
      exact Machine.new_fresh few _ _
    exact ⟨fresh.sound.weaken, fresh.outside, fresh.directed, same ▸ carries, few⟩
  | rebooted reached ih =>
    rw [powerOn_eq]
    have fresh := ih.sound.reboot ih.outside
    exact ih.withMachine (fresh _ _).sound.weaken (fresh _ _).outside (fresh _ _).directed
  | ran _ returned ih => exact ih.run returned
  | chosen _ _ ih => exact ⟨ih.sound, ih.outside, ih.directed, ih.carries, ih.few⟩
  | driven _ returned ih => exact ih.runToSave returned
  | measured portable _ ih => exact ih.measured portable
  | saved _ returned ih => exact ih.save returned
  | restored _ _ written returned wrote ih =>
    cases loads with
    | any => exact ih.load returned fun _ => rfl
    | own =>
      obtain ⟨driven, steady, written, settled, _⟩ := save_settles wrote written
      exact steady.restored ih settled written returned
  | accepted anything _ returned ih => exact ih.load returned fun _ => anything
  | refused _ returned ih => exact ih.load returned (by simp)
  | cheated _ _ ih => exact ⟨ih.sound, ih.outside, ih.directed, ih.carries, ih.few⟩
  | cleared _ ih => exact ⟨ih.sound, ih.outside, ih.directed, ih.carries, ih.few⟩

/-- A console with one coprocessor of each kind and no program, switched on. -/
def sample : Console :=
  let cartridge : Cartridge := ⟨"SAMPLE", [.multiplier, .rtc], #[]⟩
  ⟨Configuration.standard, cartridge, .fast, coldBoot Configuration.standard cartridge 0 (Machine.new cartridge.coprocessors), []⟩

theorem sample_fresh : sample.machine.Fresh [.multiplier, .rtc] := Machine.new_fresh (by decide) _ _

theorem sample_reached (loads : Loads) : sample.Reached loads [.multiplier, .rtc] :=
  .powered rfl (new_eq rfl Configuration.standard 0 ())

end Console
end MultiClock
