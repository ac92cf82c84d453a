import MultiClock.Proofs.PlainRuns
import MultiClock.Proofs.RoundTrips

/-! Consoles between two frames: as they were switched on, or after any number of frames. The next frame comes for sure, and an
instant snapshot that is taken there takes the machine to another console as it is, with nothing lost and nothing changed. -/

namespace MultiClock

open Snapshot

variable {kinds : List CoprocessorKind}

/-- Without high entropy every power-on is the same. -/
theorem Seeding.ofEntropy_unseeded {entropy : Entropy} (unseeded : entropy ≠ .high) (seed rest : UInt64) :
    ofEntropy entropy seed = ofEntropy entropy rest := by
  cases entropy with
  | none | low => rfl
  | high => exact absurd rfl unseeded

theorem Configuration.announceMethod_eq [Host ω] (configuration : Configuration) (title : String) (host : ω) :
    (configuration.announceMethod title host).1 = configuration.methodFor title := by
  simp only [announceMethod]
  split <;> rfl

/-- Clocks that keep their pace are near enough for any snapshot. -/
theorem Machine.Pacing.near {machine : Machine} (sound : machine.Sound .own kinds) (pacing : machine.Pacing 0 .own kinds)
    (id : ThreadId) : machine.Near id := by
  intro thread found
  suffices close : (machine.scheduler.time id).natAbs ≤ Clock.maxDistance by rwa [Scheduler.time_eq found] at close
  have present := Scheduler.lt_of_found found
  rw [Scheduler.size_of_wiring sound.wired] at present
  by_cases reference : id = .cpu
  · rw [reference, sound.reference]
    decide
  · have behind := pacing.behind id reference present
    have ahead := pacing.ahead id reference present
    have slow := Scheduler.rate_of_wiring sound.wired id
    have units : Cpu.workUnits .own ≤ 1491 := by decide
    have scaled := Nat.mul_le_mul units slow
    obtain ⟨patience, reach⟩ := paceOf_bounds kinds id .own
    have spent : (0 : Int) ≤ (machine.board.workload id).units * second := Int.mul_nonneg (Int.natCast_nonneg _) (Int.natCast_nonneg _)
    zify at scaled reach
    simp only [second, Clock.maxDistance] at *
    omega

namespace Console

/-- The host gets no frame, and hears nothing but notices. -/
def Quiet [Host ω] (action : ω → β × ω) : Prop := ∀ host, ∃ notices : List Notice, (action host).2 = notices.foldr Host.notice host

theorem new_quiet [Host ω] (configuration : Configuration) (cartridge : Cartridge) (seed : UInt64) :
    Quiet (Console.new configuration cartridge seed : StateM ω _) := by
  intro host
  cases valid : cartridge.validate with
  | error problem =>
    refine ⟨[], ?_⟩
    delta Console.new
    simp only [valid]
    rfl
  | ok =>
    obtain ⟨announced, heard⟩ : ∃ announced : List Notice,
        (configuration.announceMethod cartridge.title host).2 = announced.foldr Host.notice host := by
      simp only [Configuration.announceMethod]
      split
      · exact ⟨[.strictRequired cartridge.title], rfl⟩
      · exact ⟨[], rfl⟩
    refine ⟨.poweredOn cartridge.title cartridge.coprocessors.length :: announced, ?_⟩
    rw [List.foldr_cons, ← heard]
    obtain ⟨boot, boot_eq⟩ : ∃ boot, boot = @coldBoot := ⟨_, rfl⟩
    delta Console.new powerOn
    rw [← boot_eq, valid]
    rfl

theorem load_quiet [Host ω] (console : Console) (seed : UInt64) (data : Array UInt8) : Quiet (console.load seed data : Run ω _) := by
  intro host
  obtain ⟨result, notices, ends⟩ := console.load_ends seed data
  exact ⟨notices, congrArg Prod.snd (ends.load_eq host)⟩

/-- A console that was switched on, with cheats. It does not matter which seed the host picked. -/
def switchedOn (configuration : Configuration) (cartridge : Cartridge) (cheats : List Cheat) : Console :=
  ⟨configuration, cartridge, configuration.methodFor cartridge.title,
    coldBoot configuration cartridge 0 (Machine.new cartridge.coprocessors), cheats⟩

theorem new_switchedOn [Host ω] {configuration : Configuration} {cartridge : Cartridge} (unseeded : configuration.entropy ≠ .high)
    (valid : cartridge.validate = .ok ()) (seed : UInt64) (host : ω) :
    (Console.new configuration cartridge seed host).1 = .ok (switchedOn configuration cartridge []) := by
  have same : coldBoot configuration cartridge seed (Machine.new cartridge.coprocessors) =
      coldBoot configuration cartridge 0 (Machine.new cartridge.coprocessors) := by
    rw [coldBoot, coldBoot, Seeding.ofEntropy_unseeded unseeded seed 0]
  rw [new_eq valid, same, Configuration.announceMethod_eq]
  rfl

theorem switchedOn_cheats (configuration : Configuration) (cartridge : Cartridge) (cheats : List Cheat) :
    { switchedOn configuration cartridge [] with cheats := (switchedOn configuration cartridge []).cheats ++ cheats } =
      switchedOn configuration cartridge cheats := by
  obtain ⟨boot, boot_eq⟩ : ∃ boot, boot = @coldBoot := ⟨_, rfl⟩
  delta switchedOn
  rw [← boot_eq, List.nil_append]

/-- Nothing is under way but what the next frame begins with. -/
structure BetweenFrames (kinds : List CoprocessorKind) (console : Console) : Prop where
  steady : console.Steady .own kinds
  running : console.machine.Running 0 .own kinds
  event : console.machine.scheduler.event = .frame

namespace BetweenFrames
variable {console other : Console}

theorem switchedOn {configuration : Configuration} {cartridge : Cartridge} (valid : cartridge.validate = .ok ()) (cheats : List Cheat) :
    (switchedOn configuration cartridge cheats).BetweenFrames cartridge.coprocessors := by
  obtain ⟨few, _⟩ := new_eq_ok (new_eq valid configuration 0 ())
  have fresh : (coldBoot configuration cartridge 0 (Machine.new cartridge.coprocessors)).Fresh cartridge.coprocessors :=
    Machine.new_fresh few (Seeding.ofEntropy configuration.entropy 0) cartridge.program
  exact ⟨⟨fresh.sound, fresh.outside, fresh.directed, rfl, few⟩, fresh.running, fresh.event⟩

theorem near (between : console.BetweenFrames kinds) (id : ThreadId) : console.machine.Near id :=
  between.running.pacing.near between.steady.sound id

/-- The next frame completes, and then the console is between two frames again. -/
theorem run_returns [Host ω] (between : console.BetweenFrames kinds) {budget : Nat} (enough : Machine.ample 0 < budget) (host : ω) :
    ∃ machine heard, console.run budget host = (.ok { console with machine }, heard) ∧
      BetweenFrames kinds { console with machine } := by
  have ends : (console.machine.scheduler.enter budget console.machine.board).Meets (fun _ => False)
      (fun result _ => Machine.Framed 0 .own kinds ⟨result.1, result.2⟩ ∧ True) host :=
    between.running.enter_ends Board.wraps between.steady.few (by decide) (fun _ _ => True)
      (fun _ _ _ _ _ _ _ _ _ _ _ => trivial) between.steady.outside.entered trivial enough
  obtain ⟨⟨scheduler, board⟩, heard, entered, framed, _⟩ := ends.exists_ok
  have ran : console.run budget host = (.ok { console with machine := ⟨scheduler, (board.completeFrame console.cheats heard).1⟩ },
      (board.completeFrame console.cheats heard).2) := by
    rw [run_eq, Run.bind_apply, Machine.run_of_frame (Nat.zero_lt_of_lt enough) console.cheats entered framed.event]
    rfl
  exact ⟨_, _, ran, between.steady.run ran, framed.running.completeFrame console.cheats heard, framed.event⟩

theorem runFrames_returns [Host ω] (between : console.BetweenFrames kinds) {budget : Nat} (enough : Machine.ample 0 < budget)
    (count : Nat) (host : ω) : ∃ machine heard, runFrames budget count console host = (.ok { console with machine }, heard) ∧
      BetweenFrames kinds { console with machine } := by
  induction count generalizing console host with
  | zero => exact ⟨console.machine, host, rfl, between⟩
  | succ count ih =>
    obtain ⟨machine, heard, ran, next⟩ := between.run_returns enough host
    obtain ⟨last, told, returned, between⟩ := ih next heard
    refine ⟨last, told, ?_, between⟩
    rw [runFrames, Run.bind_apply, ran]
    exact returned

/-- An instant snapshot leaves the console as it is. -/
theorem writes (between : console.BetweenFrames kinds) (description : String) :
    ∃ data, console.writeSnapshot false description = (data, console) := by
  obtain ⟨written, written_eq⟩ : ∃ written, console.writeSnapshot false description = written := ⟨_, rfl⟩
  obtain ⟨data, later⟩ := written
  obtain rfl := between.steady.writeSnapshot_same between.near written_eq
  exact ⟨data, written_eq⟩

theorem saves [Host ω] {description : String} {data : Array UInt8}
    (written : console.writeSnapshot false description = (data, console)) (budget : Nat) (host : ω) :
    console.save budget false description host =
      (.ok (data, console), Host.notice (.saved false console.machine.board.frame data.size) host) := by
  rw [save_eq, if_neg Bool.false_ne_true, pure_bind, written]
  rfl

/-- And every console with the same coprocessors then has its machine. -/
theorem restores [Host ω] (between : console.BetweenFrames kinds) (fits : other.BetweenFrames kinds) {description : String}
    {data : Array UInt8} (written : console.writeSnapshot false description = (data, console)) (seed : UInt64) (host : ω) :
    ∃ notices : List Notice, other.load seed data host =
      (.ok (.ok (), { other with machine := console.machine }), notices.foldr Host.notice host) := by
  have settled : false = true → console.machine.Settled := by simp
  obtain ⟨_, _, told, loads⟩ := load_written between.steady.few between.steady.sound between.steady.outside settled
    fits.steady.sound fits.steady.carries written seed host
  obtain ⟨notices, heard⟩ := load_quiet other seed data host
  have same : console.machine.withEvent .frame = console.machine := by
    rw [← between.event]
    rfl
  rw [same] at loads
  rw [loads] at heard
  refine ⟨notices, ?_⟩
  rw [← heard]
  exact loads

end BetweenFrames

theorem runFrames_add [Host ω] (budget first second : Nat) (console : Console) :
    (runFrames budget (first + second) console : Run ω Console) = runFrames budget first console >>= runFrames budget second := by
  induction first generalizing console with
  | zero => rw [Nat.zero_add, runFrames, pure_bind]
  | succ first ih =>
    rw [Nat.succ_add, runFrames, runFrames, bind_assoc]
    exact bind_congr ih

end Console
end MultiClock
