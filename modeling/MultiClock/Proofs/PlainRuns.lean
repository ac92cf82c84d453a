import MultiClock.Proofs.ConsistentInstants
import MultiClock.Proofs.FrameProgress

/-! Consoles that are only run, from power-on or from any snapshot that they accepted. A snapshot may hold chips in the
middle of anything and clocks that are far apart, yet every run ends with a frame and nothing ever breaks off. -/

namespace MultiClock

open Snapshot

variable {loads : Loads} {kinds : List CoprocessorKind} {slack : Nat}

theorem paceOf_longest {id : ThreadId} (dependent : id ≠ .cpu) (present : id.index < 3 + kinds.length) :
    0 < (paceOf kinds id).longest := by
  cases id with
  | cpu => exact absurd rfl dependent
  | smp => exact (by decide : 0 < 72)
  | ppu => exact (by decide : 0 < Workload.frameUnits)
  | coprocessor index =>
    simp only [ThreadId.index] at present
    have listed : index.toNat < kinds.length := by omega
    simp only [paceOf, List.getElem?_eq_getElem listed, Option.map_some, Option.getD_some]
    cases kinds[index.toNat] with
    | multiplier => exact (by decide : 0 < Multiplier.latency.toNat)
    | rtc => exact Nat.one_pos

namespace Machine

/-- At power-on all clocks are level. -/
theorem Fresh.running {machine : Machine} (fresh : machine.Fresh kinds) : machine.Running slack loads kinds := by
  have idle : ∀ id, (machine.board.workload id).units = 0 := fun id => by
    rw [(fresh.rested id).workload]
    rfl
  refine ⟨fresh.sound.weaken, ⟨fun id _ _ => ?_, fun id _ _ _ => ?_, fun id dependent present => ?_⟩, fresh.mode, fresh.directed.active, ?_⟩
  · rw [fresh.level]
    have floor : (0 : Int) ≤ slack + Cpu.workUnits loads * machine.scheduler.rate id := by positivity
    omega
  · rw [fresh.level]
    have floor : (0 : Int) ≤ slack + machine.board.cpu.catchupUnits.toNat * machine.scheduler.rate id := by positivity
    omega
  · rw [fresh.level, idle]
    have patience := paceOf_patience kinds id
    have longest := Nat.lt_of_lt_of_le (paceOf_longest dependent present) ((paceOf kinds id).longest_le loads)
    push_cast
    omega
  · intro dependent
    exact absurd fresh.active dependent

/-- Whatever a machine is loaded with, its clocks are not far apart. -/
theorem Sound.running {machine : Machine} (sound : machine.Sound .any kinds) (mode : machine.scheduler.mode = .run)
    (present : machine.scheduler.active.index < machine.scheduler.threads.size)
    (near : ∀ id, (machine.scheduler.time id).natAbs ≤ 2 ^ 56) : machine.Running (2 ^ 57) .any kinds := by
  refine ⟨sound, ⟨fun id _ _ => ?_, fun id _ _ _ => ?_, fun id dependent present => ?_⟩, mode, present, fun _ _ => ?_⟩
  · have floor : (0 : Int) ≤ Cpu.workUnits .any * machine.scheduler.rate id := by positivity
    have close := near id
    push_cast
    omega
  · have floor : (0 : Int) ≤ machine.board.cpu.catchupUnits.toNat * machine.scheduler.rate id := by positivity
    have close := near id
    push_cast
    omega
  · have patience := paceOf_patience kinds id
    have units := (machine.board.workload_le id).2
    have reach : 6120 ≤ (paceOf kinds id).reach .any := Nat.le_max_right _ _
    have close := near id
    push_cast
    omega
  · have patience := paceOf_patience kinds machine.scheduler.active
    have close := near machine.scheduler.active
    push_cast
    omega

end Machine

namespace Console

/-- The consoles that were powered on or have accepted a snapshot, and have only been run since then. -/
inductive Played (kinds : List CoprocessorKind) : Console → Prop
  | powered {ω : Type} [Host ω] {configuration : Configuration} {cartridge : Cartridge} {seed : UInt64} {host : ω}
      {console : Console} (carries : cartridge.coprocessors = kinds)
      (built : (Console.new configuration cartridge seed host).1 = .ok console) : Played kinds console
  | rebooted {ω : Type} [Host ω] {console : Console} {seed : UInt64} {host : ω} (played : Played kinds console) :
      Played kinds (console.powerOn seed host).1
  | accepted {ω : Type} [Host ω] {console later : Console} {data : Array UInt8} {seed : UInt64} {host heard : ω}
      (played : Played kinds console) (returned : console.load seed data host = (.ok (.ok (), later), heard)) : Played kinds later
  | ran {ω : Type} [Host ω] {console later : Console} {budget : Nat} {host heard : ω} (played : Played kinds console)
      (returned : console.run budget host = (.ok later, heard)) : Played kinds later
  | cheated {console : Console} (cheat : Cheat) (played : Played kinds console) : Played kinds (console.addCheat cheat)
  | cleared {console : Console} (played : Played kinds console) : Played kinds console.clearCheats

variable {console later : Console}

theorem Played.reached (played : console.Played kinds) : console.Reached .any kinds := by
  induction played with
  | powered carries built => exact .powered carries built
  | rebooted _ ih => exact .rebooted ih
  | accepted _ returned ih => exact .accepted rfl ih returned
  | ran _ returned ih => exact .ran ih returned
  | cheated cheat _ ih => exact .cheated cheat ih
  | cleared _ ih => exact .cleared ih

/-- An accepted snapshot holds a machine that can be run. -/
theorem Steady.load_running [Host ω] (steady : console.Steady .any kinds) {seed : UInt64} {data : Array UInt8} {host heard : ω}
    (returned : console.load seed data host = (.ok (.ok (), later), heard)) : later.machine.Running (2 ^ 57) .any kinds := by
  have after := steady.load returned fun _ => rfl
  rcases load_eq_ok returned with ⟨_, impossible, _⟩ | ⟨_, header, machine, settled, body, settles, same⟩
  · cases impossible
  · have measured := steady.measured header.portable
    obtain ⟨sized, sized_eq⟩ : ∃ sized, (console.snapshotSize header.portable).2 = sized := ⟨_, rfl⟩
    rw [sized_eq] at measured body same
    obtain ⟨sound, outside, directed, near⟩ := readBody_sound measured.few measured.carries body
    obtain ⟨_, _, times⟩ := settleLoaded_sound sound outside directed settles
    refine after.sound.running after.outside.mode after.directed.active fun id => ?_
    have here : later.machine.scheduler.time id = machine.scheduler.time id := by
      rw [same]
      exact times id
    rw [here]
    cases found : machine.scheduler.thread? id with
    | none => simp [Scheduler.time, found]
    | some thread =>
      rw [Scheduler.time_eq found]
      exact near id thread found

/-- Loading never breaks off: the machine in an accepted snapshot is outside the simulation, so it can be settled. -/
theorem load_returns [Host ω] (steady : console.Steady loads kinds) (seed : UInt64) (data : Array UInt8) (host : ω) :
    ∃ result later heard, console.load seed data host = (.ok (result, later), heard) := by
  obtain ⟨result, notices, ends⟩ := console.load_ends seed data
  rw [ends.load_eq host]
  cases ends with
  | unreadable | refused | accepted => exact ⟨_, _, _, rfl⟩
  | @unsettled header machine fault parsed found breaks =>
    have measured := steady.measured header.portable
    obtain ⟨settled, settles⟩ := readBody_settled measured.few measured.carries (Except.seqRight_eq_ok found) header.portable
    cases breaks.symm.trans settles

theorem Played.running (played : console.Played kinds) : console.machine.Running (2 ^ 57) .any kinds := by
  induction played with
  | powered carries built =>
    obtain ⟨few, _, machine⟩ := new_eq_ok built
    rw [carries] at few machine
    rw [machine]
    exact (Machine.new_fresh few _ _).running
  | @rebooted _ _ console seed host played _ =>
    have steady := played.reached.steady
    rw [powerOn_eq]
    exact (steady.sound.reboot steady.outside _ _).running
  | accepted played returned _ => exact played.reached.steady.load_running returned
  | @ran _ _ console later budget host heard played returned ih =>
    have steady := played.reached.steady
    rw [run_eq] at returned
    obtain ⟨machine, told, ran, same⟩ := Run.bind_eq_ok returned
    cases same
    have runs : (console.machine.run budget console.cheats).Meets (fun _ => True) _ host :=
      ih.run_meets steady.few (by decide) trivial steady.outside.entered budget console.cheats
    exact (runs.of_ok ran).running
  | cheated _ _ ih => exact ih
  | cleared _ ih => exact ih

/-- With enough slices an entry always ends, and it ends with a frame of the display processor. A run is one such entry:
it returns once the host has seen to that frame. -/
theorem Played.frame_completes (played : console.Played kinds) :
    ∃ enough, ∀ budget, enough ≤ budget → ∀ (ω : Type) [Host ω] (host : ω), ∃ scheduler board heard,
      console.machine.scheduler.enter budget console.machine.board host = (.ok (scheduler, board), heard) ∧
      scheduler.event = .frame ∧ scheduler.active = .ppu ∧ board.frame = console.machine.board.frame ∧
      console.run budget host = (.ok { console with machine := ⟨scheduler, (board.completeFrame console.cheats heard).1⟩ },
        (board.completeFrame console.cheats heard).2) := by
  have steady := played.reached.steady
  have running := played.running
  refine ⟨Machine.ample (2 ^ 57) + 1, fun budget enough ω _ host => ?_⟩
  have ends : (console.machine.scheduler.enter budget console.machine.board).Meets (fun _ => False)
      (fun result _ => Machine.Framed (2 ^ 57) .any kinds ⟨result.1, result.2⟩ ∧ result.2.frame = console.machine.board.frame) host := by
    refine running.enter_ends Board.wraps steady.few (by decide) (fun _ board => board.frame = console.machine.board.frame)
      (fun scheduler board _ _ same action later moved middle notices sliced => ?_) steady.outside.entered rfl enough
    have kept := (Board.slice_keeps scheduler.active board scheduler).of_ok sliced.sliced
    exact kept.2.2.2.trans same
  obtain ⟨⟨scheduler, board⟩, heard, entered, framed, same⟩ := ends.exists_ok
  refine ⟨scheduler, board, heard, entered, framed.event, framed.active, same, ?_⟩
  rw [run_eq, Run.bind_apply, Machine.run_of_frame (Nat.zero_lt_of_lt enough) console.cheats entered framed.event]
  rfl

theorem Played.frame_completes_switched_on : sample.Played [.multiplier, .rtc] ∧
    ∃ enough scheduler board heard, sample.machine.scheduler.enter enough sample.machine.board () = (.ok (scheduler, board), heard) ∧
      scheduler.event = .frame ∧ scheduler.active = .ppu := by
  have played : sample.Played [.multiplier, .rtc] := .powered rfl (new_eq rfl Configuration.standard 0 ())
  obtain ⟨enough, completes⟩ := Played.frame_completes played
  obtain ⟨scheduler, board, heard, entered, event, active, _⟩ := completes enough (Nat.le_refl _) Unit ()
  exact ⟨played, enough, scheduler, board, heard, entered, event, active⟩

theorem runFrames_played [Host ω] (played : console.Played kinds) (budget count : Nat) (host : ω) :
    (runFrames budget count console).Meets (· = .exhausted) (fun last _ => last.Played kinds) host := by
  induction count generalizing console host with
  | zero => exact .pure played
  | succ count ih =>
    have steady := played.reached.steady
    have runs : (console.run budget).Meets (· = .exhausted) (fun last _ => last.Played kinds) host := by
      have returns : (console.run budget).Meets (· = .exhausted) (fun _ _ => True) host := by
        have framed : (console.machine.run budget console.cheats).Meets (· = .exhausted) _ host :=
          played.running.run_meets steady.few (by decide) (by rfl) steady.outside.entered budget console.cheats
        rw [run_eq]
        exact framed.bind fun machine heard framed => .pure trivial
      exact returns.returned.mono fun last heard ran => .ran played ran.1
    exact runs.bind fun last heard played => ih played heard

/-- Whatever bytes a console is given, it answers. If it accepts them, nothing that it then does while it is run breaks
off, unless its host stops it. All that while the active thread exists and has a chip, every coprocessor has a latch, and
the samples fit into their buffer. -/
theorem Played.load_robust [Host ω] (played : console.Played kinds) (seed : UInt64) (data : Array UInt8) (host : ω) :
    ∃ result later heard, console.load seed data host = (.ok (result, later), heard) ∧
      (result = .ok () →
        (∀ (υ : Type) [Host υ] (budget count : Nat) (listener : υ),
          (runFrames budget count later).Meets (· = .exhausted) (fun last _ => last.Played kinds) listener) ∧
        ∀ now, Machine.Through later.machine now → now.scheduler.active.index < now.scheduler.threads.size ∧
          (now.board.inspect? now.scheduler.active).isSome = true ∧
          now.board.bus.coprocessors.size = now.board.coprocessors.size ∧
          now.board.smp.sampleCount.toNat ≤ Smp.sampleCapacity) := by
  obtain ⟨result, later, heard, returned⟩ := load_returns played.reached.steady seed data host
  refine ⟨result, later, heard, returned, fun accepted => ?_⟩
  subst accepted
  have after := played.accepted returned
  have steady := after.reached.steady
  refine ⟨fun υ _ budget count listener => runFrames_played after budget count listener, fun now through => ?_⟩
  have sound := steady.sound.through steady.few through
  have directed := steady.directed.through steady.few steady.sound through
  obtain ⟨thread, found⟩ := Scheduler.found_of_lt directed.active
  obtain ⟨inspected, shown⟩ := sound.inspected found
  refine ⟨directed.active, ?_, sound.fits.latches.trans sound.fits.chips.symm, sound.fits.smp.samples⟩
  rw [shown]
  rfl

/-- A console that was just switched on accepts a snapshot of itself and can then be run. -/
theorem Played.load_robust_switched_on : sample.Played [.multiplier, .rtc] ∧ ∃ data later heard,
    sample.load 0 data () = (.ok (.ok (), later), heard) ∧ ∀ (budget count : Nat) (listener : Unit),
      (runFrames budget count later).Meets (· = .exhausted) (fun last _ => last.Played [.multiplier, .rtc]) listener := by
  have played : sample.Played [.multiplier, .rtc] := .powered rfl (new_eq rfl Configuration.standard 0 ())
  have sound := sample_fresh.sound
  obtain ⟨written, written_eq⟩ : ∃ written, sample.writeSnapshot false "switched on" = written := ⟨_, rfl⟩
  obtain ⟨data, saved⟩ := written
  obtain ⟨_, _, told, loads⟩ :=
    load_written (by decide) sound sample_fresh.outside (by simp) sound rfl written_eq 0 ()
  obtain ⟨result, later, heard, returned, robust⟩ := Played.load_robust played 0 data ()
  rw [loads] at returned
  cases returned
  exact ⟨played, data, _, _, loads, fun budget count listener => (robust rfl).1 Unit budget count listener⟩

end Console
end MultiClock
