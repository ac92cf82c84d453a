import MultiClock.Proofs.SurveyedClocks

/-! How far the clocks drift apart, whatever a console is asked to do after power-on: frames and fast saves in any order. The
bounds hold after every single slice, so no clock ever comes near the limits of its word. -/

namespace MultiClock

variable {kinds : List CoprocessorKind}

/-- The clocks of a machine of these coprocessors are within their bounds. A dependent falls behind by no more than one
catching up and the instruction that was under way, and gets ahead by no more than the unit of work that it may still start. -/
structure Scheduler.Bounded (kinds : List CoprocessorKind) (scheduler : Scheduler) : Prop where
  wired : scheduler.shape = wiring kinds
  reference : scheduler.time .cpu = 0
  behind : ∀ id, id ≠ .cpu → id.index < 3 + kinds.length →
    -((Cpu.catchupThreshold.toNat + 128) * scheduler.rate id : Nat) ≤ scheduler.time id
  audio : scheduler.time .smp ≤ ((Smp.aheadUnits.toNat + 72) * Clock.cpuFrequency.toNat : Nat)
  picture : scheduler.time .ppu < (1364 * Clock.cpuFrequency.toNat : Nat)
  multiplier : ∀ index, kinds[index.toNat]? = some .multiplier →
    scheduler.time (.coprocessor index) < (8 * Clock.cpuFrequency.toNat : Nat)
  clock : ∀ index, kinds[index.toNat]? = some .rtc → scheduler.time (.coprocessor index) < Clock.cpuFrequency.toNat

theorem Scheduler.Bounded.same {before after : Scheduler} (bounded : before.Bounded kinds) (shape : after.shape = before.shape)
    (times : ∀ id, after.time id = before.time id) : after.Bounded kinds where
  wired := shape.trans bounded.wired
  reference := (times .cpu).trans bounded.reference
  behind id dependent present := by
    rw [times, rate_of_shape shape]
    exact bounded.behind id dependent present
  audio := times .smp ▸ bounded.audio
  picture := times .ppu ▸ bounded.picture
  multiplier index listed := times (.coprocessor index) ▸ bounded.multiplier index listed
  clock index listed := times (.coprocessor index) ▸ bounded.clock index listed

namespace Machine

theorem Pacing.bounded {machine : Machine} (sound : machine.Sound .own kinds) (pacing : machine.Pacing 0 .own kinds) :
    machine.scheduler.Bounded kinds := by
  have spent : ∀ id, (0 : Int) ≤ (machine.board.workload id).units * second := fun id =>
    Int.mul_nonneg (Int.natCast_nonneg _) (Int.natCast_nonneg _)
  have listed : ∀ {index : UInt8} {kind}, kinds[index.toNat]? = some kind →
      machine.scheduler.time (.coprocessor index) ≤ kind.pace.patience + kind.pace.longest * second := by
    intro index kind listed
    have present : ThreadId.index (.coprocessor index) < 3 + kinds.length := by
      obtain ⟨inside, _⟩ := List.getElem?_eq_some_iff.mp listed
      simp only [ThreadId.index]
      omega
    have ahead := pacing.ahead (.coprocessor index) (by simp) present
    have units := spent (.coprocessor index)
    simp only [paceOf, listed, Option.map_some, Option.getD_some, Workload.Pace.reach] at ahead
    omega
  refine ⟨sound.wired, sound.reference, fun id dependent present => ?_, ?_, ?_, fun index multiplier => ?_, fun index clock => ?_⟩
  · have behind := pacing.behind id dependent present
    have room : Cpu.workUnits .own ≤ Cpu.catchupThreshold.toNat + 128 := by decide
    have scaled := Nat.mul_le_mul_right (machine.scheduler.rate id) room
    zify at scaled
    push_cast at behind ⊢
    linarith
  · have ahead := pacing.ahead .smp (by simp) (by simp only [ThreadId.index]; omega)
    have units := spent .smp
    simp only [paceOf, Smp.pace, Workload.Pace.reach] at ahead
    simp only [second, Smp.aheadUnits, Clock.smpFrequency, Clock.cpuFrequency] at ahead units ⊢
    simp only [UInt32.reduceDiv, UInt32.reduceToNat] at ahead ⊢
    omega
  · have ahead := pacing.ahead .ppu (by simp) (by simp only [ThreadId.index]; omega)
    have units := spent .ppu
    simp only [paceOf, Ppu.pace, Workload.Pace.prompt, Workload.frameUnits, Workload.Pace.reach] at ahead
    simp only [second, Clock.cpuFrequency, UInt32.reduceToNat] at ahead units ⊢
    omega
  · have ahead := listed multiplier
    simp only [CoprocessorKind.pace, Multiplier.pace, Workload.Pace.prompt, Multiplier.latency, UInt8.reduceToNat, second] at ahead
    simp only [Clock.cpuFrequency, UInt32.reduceToNat]
    omega
  · have ahead := listed clock
    simp only [CoprocessorKind.pace, Rtc.pace, Workload.Pace.prompt, second] at ahead
    simp only [Clock.cpuFrequency, UInt32.reduceToNat]
    omega

end Machine

theorem Scheduler.Paced.bounded {scheduler : Scheduler} (paced : scheduler.Paced 0 kinds) : scheduler.Bounded kinds := by
  obtain ⟨machine, sound, pacing, shape, times⟩ := paced
  exact (pacing.bounded sound).same shape times

/-- The fast method drives nobody who is not behind, so it moves nobody further ahead than normal execution does. -/
theorem fast_steering (kinds : List CoprocessorKind) : Steering kinds .fast Scheduler.Eligible (fun _ => 0) 0 where
  permits := {
    again := fun driving busy => ⟨fun _ => .inl (Machine.running_of_asleep (busy rfl)), absurd rfl⟩
    onward := fun before after onward eligible => ⟨onward.drivable eligible.drivable, absurd rfl⟩
    unsettled := fun scheduler id dependent awake => ⟨fun reference => absurd reference dependent, fun _ => awake⟩
    all := by simp }
  free _ _ := rfl
  reference _ drivable := ⟨drivable, absurd rfl⟩
  begins poised _ eligible := poised.begins_fast eligible
  save level _ _ := Nat.le_of_eq (Save.raised_free (fun _ => rfl) _ level _)
  limit level small _ _ := by
    rw [Save.raised_free fun _ => rfl]
    omega

namespace Console

/-- A console that completes frames and takes fast saves goes on for as long as it is asked to, and its clocks keep their pace. -/
theorem watch_fast [Host ω] {configuration : Configuration} {cartridge : Cartridge} {seed : UInt64} {host : ω} {console : Console}
    (built : (Console.new configuration cartridge seed host).1 = .ok console) (fast : console.method = .fast)
    (wram : Vector UInt8 0x2000) (ram : Vector UInt8 0x1000) (cheats : List Cheat) {budget : Nat}
    (enough : Machine.ample 0 + Machine.vast < budget) (requests : List Request) {υ : Type} [Host υ] (listener : υ) :
    ∃ last history heard, (console.holding wram ram cheats).watch budget requests listener = (.ok (last, history), heard) ∧
      Surveyed 0 cartridge.coprocessors history := by
  have fresh := fresh_of_built built wram ram cheats
  obtain ⟨few, _⟩ := new_eq_ok built
  have answers : (Scheduler.answerAll (Watched.completeFrame cheats) .fast budget requests
      ((console.holding wram ram cheats).machine.scheduler, ⟨(console.holding wram ram cheats).machine.board, []⟩)).Meets _ _ listener :=
    Watched.answers few cheats (fast_steering _) requests (by simp) (by rwa [Nat.mul_zero]) fresh.attended Always.nil
  obtain ⟨result, heard, returned, surveyed⟩ := answers.exists_ok
  obtain ⟨scheduler, watched⟩ := result
  rw [← fast] at returned
  rw [Nat.mul_zero] at surveyed
  exact ⟨_, watched.history, heard, watch_eq_ok returned, surveyed⟩

/-- The clocks of a console never drift apart by more than one catching up and one unit of work, whatever the cartridge and
the memories hold, for as long as it completes frames and takes fast saves. No clock ever overflows. -/
theorem drift_bounded [Host ω] {configuration : Configuration} {cartridge : Cartridge} {seed : UInt64} {host : ω}
    {console : Console} (built : (Console.new configuration cartridge seed host).1 = .ok console) (fast : console.method = .fast)
    (wram : Vector UInt8 0x2000) (ram : Vector UInt8 0x1000) (cheats : List Cheat) :
    ∃ enough, ∀ budget, enough ≤ budget → ∀ (requests : List Request) (υ : Type) [Host υ] (listener : υ), ∃ last history heard,
      (console.holding wram ram cheats).watch budget requests listener = (.ok (last, history), heard) ∧
      (console.holding wram ram cheats).operate budget requests listener = (.ok last, heard) ∧
      Always (fun _ moment => moment.after.scheduler.Bounded cartridge.coprocessors) history := by
  refine ⟨Machine.ample 0 + Machine.vast + 1, fun budget enough requests υ _ listener => ?_⟩
  obtain ⟨last, history, heard, seen, surveyed⟩ := watch_fast built fast wram ram cheats enough requests listener
  exact ⟨last, history, heard, seen, operate_of_watch seen, Always.imp surveyed fun _ _ paced => paced.bounded⟩

theorem drift_bounded_switched_on : sample.method = .fast ∧ ∃ enough last history heard,
    (sample.holding (Vector.replicate 0x2000 2) (Vector.replicate 0x1000 1) []).watch enough [.run, .save, .save, .run] () =
        (.ok (last, history), heard) ∧
      Always (fun _ moment => moment.after.scheduler.Bounded [.multiplier, .rtc]) history := by
  have built : (Console.new Configuration.standard sample.cartridge 0 ()).1 = .ok sample := new_eq rfl Configuration.standard 0 ()
  obtain ⟨enough, bounded⟩ := drift_bounded built rfl (Vector.replicate 0x2000 2) (Vector.replicate 0x1000 1) []
  obtain ⟨last, history, heard, watched, _, held⟩ := bounded enough (Nat.le_refl _) [.run, .save, .save, .run] Unit ()
  exact ⟨rfl, enough, last, history, heard, watched, held⟩

end Console
end MultiClock
