import MultiClock.Proofs.Surplus
import MultiClock.Proofs.SurveyedClocks

/-! How far the clocks drift apart when a console is saved by the strict method. That method drives every dependent to its
next point in every pass, also those that are ahead, so every save may move the display processor one line further ahead.
Nothing takes that back before the next frame: the drift is bounded only by the number of saves. -/

namespace MultiClock

variable {kinds : List CoprocessorKind} {slack : Nat}

theorem paceOf_coprocessor (kinds : List CoprocessorKind) (index : UInt8) :
    (paceOf kinds (.coprocessor index)).patience = -1 ∧ (paceOf kinds (.coprocessor index)).longest ≤ 8 := by
  simp only [paceOf]
  cases kinds[index.toNat]? with
  | none => exact ⟨rfl, by decide⟩
  | some kind => cases kind <;> exact ⟨rfl, by decide⟩

/-- Nobody is further ahead than the audio processor after the last instruction that it is patient to start. -/
theorem paceOf_ahead (kinds : List CoprocessorKind) (id : ThreadId) :
    (paceOf kinds id).patience + (paceOf kinds id).longest * second ≤ 24648 * second := by
  cases id with
  | cpu => exact (by decide : -1 + (0 : Nat) * second ≤ (24648 * second : Int))
  | smp => exact (by decide : (24576 * second : Nat) + (72 : Nat) * second ≤ (24648 * second : Int))
  | ppu => exact (by decide : -1 + (1364 : Nat) * second ≤ (24648 * second : Int))
  | coprocessor index =>
    obtain ⟨patience, longest⟩ := paceOf_coprocessor kinds index
    have scaled := Nat.mul_le_mul_right second longest
    zify at scaled
    rw [patience]
    simp only [second] at scaled ⊢
    omega

/-- No clock is further from the reference than the slack and the last unit of work that a dependent is patient to start. -/
theorem Scheduler.Paced.distance_le {scheduler : Scheduler} (paced : scheduler.Paced slack kinds) (id : ThreadId) :
    |scheduler.time id| ≤ (slack + 24648 * second : Nat) := by
  obtain ⟨machine, sound, pacing, _, times⟩ := paced
  rw [times]
  by_cases absent : id = .cpu ∨ machine.scheduler.thread? id = none
  · have still : machine.scheduler.time id = 0 := by
      rcases absent with rfl | missing
      · exact sound.reference
      · simp [Scheduler.time, missing]
    rw [still, abs_zero]
    exact Int.natCast_nonneg _
  · obtain ⟨dependent, found⟩ := not_or.mp absent
    obtain ⟨thread, found⟩ := Option.ne_none_iff_exists'.mp found
    have present := Scheduler.lt_of_found found
    rw [Scheduler.size_of_wiring sound.wired] at present
    have low := pacing.behind id dependent present
    have high := pacing.ahead id dependent present
    have reach := paceOf_ahead kinds id
    have work : (Cpu.workUnits .own : Int) * machine.scheduler.rate id ≤ 4768 * 24576000 := by
      have units : Cpu.workUnits .own ≤ 4768 := by decide
      have scaled := Nat.mul_le_mul units (Scheduler.rate_of_wiring sound.wired id)
      zify at scaled
      exact scaled
    have spent : (0 : Int) ≤ (machine.board.workload id).units * second :=
      Int.mul_nonneg (Int.natCast_nonneg _) (Int.natCast_nonneg _)
    simp only [Workload.Pace.reach, second] at high reach spent ⊢
    rw [abs_le]
    constructor <;> omega

/-- What a drive by the strict method costs: the longest unit of work of the dependent. -/
abbrev strictCost (kinds : List CoprocessorKind) (id : ThreadId) : Nat := (paceOf kinds id).longest * second

theorem bystanders_cost (kinds : List CoprocessorKind) :
    ((Save.bystanders kinds).map (strictCost kinds)).sum ≤ (1364 + 8 * kinds.length) * second := by
  have coprocessors : ((List.range kinds.length).map fun position =>
      strictCost kinds (.coprocessor (UInt8.ofNat position))).sum ≤ kinds.length * (8 * second) := by
    have each := List.sum_le_card_nsmul ((List.range kinds.length).map fun position =>
      strictCost kinds (.coprocessor (UInt8.ofNat position))) (8 * second) (by
        intro cost member
        obtain ⟨position, _, rfl⟩ := List.mem_map.mp member
        exact Nat.mul_le_mul_right second (paceOf_coprocessor kinds (UInt8.ofNat position)).2)
    simpa using each
  have picture : strictCost kinds .ppu = 1364 * second := rfl
  rw [Save.bystanders, List.map_cons, List.sum_cons, List.map_map, picture]
  have same : strictCost kinds ∘ (fun position => ThreadId.coprocessor (UInt8.ofNat position)) = fun position =>
      strictCost kinds (.coprocessor (UInt8.ofNat position)) := rfl
  rw [same]
  linarith

/-- What a save by the strict method costs. Every pass drives the audio processor once more. -/
theorem raised_strict (few : kinds.length ≤ Cartridge.maxCoprocessors) (level disturbances : Nat) :
    Save.raised (strictCost kinds) (Save.bystanders kinds) level disturbances ≤ level + (72 * disturbances + 1540) * second := by
  have others := bystanders_cost kinds
  have audio : strictCost kinds .smp = 72 * second := rfl
  have reference : strictCost kinds .cpu = 0 := Nat.zero_mul second
  have scaled := Nat.mul_le_mul_right second (Nat.mul_le_mul_left 8 few)
  simp only [Cartridge.maxCoprocessors] at scaled
  simp only [Save.raised, audio, reference, Nat.add_zero, nsmul_eq_mul, Nat.cast_id]
  linarith

/-- What a save by the strict method adds to the surplus of the display processor. -/
theorem raised_push (few : kinds.length ≤ Cartridge.maxCoprocessors) (level : Int) {disturbances : Nat}
    (most : disturbances ≤ 2 + kinds.length) :
    level + (468 * second : Nat) ≤ Save.raised Machine.push (Save.bystanders kinds) level disturbances := by
  have coprocessors : ((List.range kinds.length).map fun position =>
      Machine.push (.coprocessor (UInt8.ofNat position))).sum = 0 := by simp [Machine.push]
  have others : ((Save.bystanders kinds).map Machine.push).sum = (1364 * second : Nat) := by
    rw [Save.bystanders, List.map_cons, List.sum_cons, List.map_map]
    exact (congrArg _ coprocessors).trans (Int.add_zero _)
  simp only [Cartridge.maxCoprocessors] at few
  have passes : (disturbances + 1 : Int) * (128 * second) ≤ 7 * (128 * second) := by
    have passes : disturbances + 1 ≤ 7 := by omega
    have scaled := Nat.mul_le_mul_right (128 * second) passes
    zify at scaled
    exact scaled
  rw [Save.raised, others]
  simp only [Machine.push, nsmul_eq_mul, second] at passes ⊢
  push_cast at passes ⊢
  omega

/-- The strict method drives every dependent, and the reference like the fast method does. -/
theorem strict_steering (few : kinds.length ≤ Cartridge.maxCoprocessors) :
    Steering kinds .strict Scheduler.Drivable (strictCost kinds) (1972 * second) where
  permits := {
    again := fun driving busy _ => .inl (Machine.running_of_asleep (busy rfl))
    onward := fun before after => Save.Onward.drivable
    unsettled := fun scheduler id dependent _ reference => absurd reference dependent
    all := fun _ scheduler id dependent reference => absurd reference dependent }
  free impossible := by cases impossible
  reference _ drivable := drivable
  begins poised present drivable := poised.begins_strict drivable present
  save level disturbances most := by
    have raised := raised_strict few level disturbances
    simp only [Cartridge.maxCoprocessors] at few
    have scaled : (72 * disturbances + 1540) * second ≤ 1972 * second := Nat.mul_le_mul_right second (by omega)
    exact Nat.le_trans raised (Nat.add_le_add_left scaled level)
  limit level small disturbances most := by
    have raised := raised_strict few level disturbances
    have scaled : (72 * disturbances + 1540) * second ≤ 120700 * second := Nat.mul_le_mul_right second (by omega)
    have room : 2 ^ 59 + 120700 * second ≤ 2 ^ 60 := by decide
    exact Nat.le_trans raised (Nat.le_trans (Nat.add_le_add small scaled) room)

namespace Machine

/-- A machine after a save, with the surplus of its display processor. -/
structure Surplus (level : Int) (kinds : List CoprocessorKind) (machine : Machine) : Prop where
  sound : machine.Sound .own kinds
  outside : machine.scheduler.entered = false
  present : machine.scheduler.active.index < machine.scheduler.threads.size
  resting : machine.Resting level

/-- A machine is handed back with the surplus that it comes to rest with. -/
theorem Resting.surplus_handed {level : Int} {scheduler : Scheduler} {board : Board} (resting : Resting level ⟨scheduler, board⟩)
    (sound : Sound .own kinds ⟨scheduler, board⟩) (outside : scheduler.entered = false) :
    Surplus level kinds ⟨{ scheduler with mode := .run, active := .cpu, desynchronized := false }, board⟩ where
  sound := sound.withScheduler rfl sound.free
  outside := outside
  present := by
    have size : scheduler.threads.size = 3 + kinds.length := Scheduler.size_of_wiring sound.wired
    change ThreadId.cpu.index < scheduler.threads.size
    simp only [ThreadId.index]
    omega
  resting := ⟨resting.parked, resting.surplus, resting.spent⟩

/-- When all threads are settled, nobody is behind. -/
theorem Sound.resting_of_quiescent {scheduler : Scheduler} {board : Board} (sound : Sound .own kinds ⟨scheduler, board⟩)
    (few : kinds.length ≤ Cartridge.maxCoprocessors) (quiescent : scheduler.quiescent = true) : Resting 0 ⟨scheduler, board⟩ := by
  have indexed := Scheduler.indexed_of_wiring few sound.wired
  have size : scheduler.threads.size = 3 + kinds.length := Scheduler.size_of_wiring sound.wired
  obtain ⟨picture, shown⟩ := @Scheduler.found_of_lt scheduler .ppu (by simp only [ThreadId.index]; omega)
  obtain ⟨reference, found⟩ := @Scheduler.found_of_lt scheduler .cpu (by simp only [ThreadId.index]; omega)
  obtain ⟨parked, level⟩ := parked_of_quiescent indexed quiescent shown
  obtain ⟨asleep, _⟩ := parked_of_quiescent indexed quiescent found
  have idle : board.cpu.continuation = .idle :=
    sound.suspended rfl .cpu .parked ((Scheduler.state?_eq found).trans (congrArg some asleep)) (by decide)
  refine ⟨(Scheduler.state?_eq shown).trans (congrArg some parked), ?_, Cpu.stint_of_idle idle⟩
  have ahead := level.resolve_left (by simp)
  rw [← Scheduler.time_eq shown] at ahead
  exact ahead

end Machine

namespace Watched

open Machine

section surplus

variable [Host ω] (few : kinds.length ≤ Cartridge.maxCoprocessors) (cheats : List Cheat) {budget : Nat} (enough : vast < budget)
  {scheduler : Scheduler} {watched : Watched}
include few enough

theorem first_surplus (attended : Attended slack kinds ⟨scheduler, watched.board⟩) {host : ω} :
    (Scheduler.answer (Watched.completeFrame cheats) .strict budget .save (scheduler, watched)).Meets (· = .clockOverflow)
      (fun result _ => Surplus 0 kinds ⟨result.1, result.2.board⟩) host := by
  have keeps := @Save.keeps_nothing .own kinds Watched ω _ _ Watched.board (Watched.completeFrame cheats)
    ⟨cheats, fun _ _ => rfl⟩
  rw [Scheduler.answer]
  refine (keeps.runToSave_meets 0 wraps few enough (.anyone .strict) (fun _ _ => rfl) (fun _ _ => trivial)
    attended.running.sound attended.outside attended.running.present trivial trivial).bind ?_
  intro driving heard ends
  obtain ⟨_, ended, _⟩ := ends
  obtain ⟨last, held, quiescent, chips, scheduler⟩ := ended.held
  have sound := held.steered.sound
  apply Run.Meets.pure
  rw [scheduler, chips]
  exact (sound.resting_of_quiescent few quiescent).surplus_handed sound held.outside

/-- Every further save adds to the surplus: each of its passes takes back one instruction at most, and there are no more than
seven of them. -/
theorem next_surplus {level : Int} (surplus : Surplus level kinds ⟨scheduler, watched.board⟩) {host : ω} :
    (Scheduler.answer (Watched.completeFrame cheats) .strict budget .save (scheduler, watched)).Meets (· = .clockOverflow)
      (fun result _ => Surplus (level + (468 * second : Nat)) kinds ⟨result.1, result.2.board⟩) host := by
  have keeps := @Save.keeps_surplus Watched ω kinds _ _ Watched.board (Watched.completeFrame cheats) (· = .clockOverflow) rfl
    ⟨cheats, fun _ _ => rfl⟩
  have begins : Resting level ⟨Save.steered scheduler, watched.board⟩ :=
    ⟨surplus.resting.parked, surplus.resting.surplus, surplus.resting.spent⟩
  rw [Scheduler.answer]
  refine (keeps.runToSave_meets level wraps few enough (.anyone .strict) (by simp) (fun _ _ => trivial)
    surplus.sound surplus.outside surplus.present trivial begins).bind ?_
  intro driving heard ends
  obtain ⟨disturbances, ended, most⟩ := ends
  obtain ⟨last, held, _, chips, scheduler⟩ := ended.held
  have raised := raised_push few level (most rfl)
  apply Run.Meets.pure
  rw [scheduler, chips]
  have resting : Resting (level + (468 * second : Nat)) ⟨last.scheduler, last.chips.board⟩ :=
    ⟨held.rest.parked, Int.le_trans raised held.rest.surplus, held.rest.spent⟩
  exact resting.surplus_handed held.steered.sound held.outside

theorem more_surplus (count : Nat) {level : Int} (surplus : Surplus level kinds ⟨scheduler, watched.board⟩) {host : ω} :
    (Scheduler.answerAll (Watched.completeFrame cheats) .strict budget (List.replicate count .save) (scheduler, watched)).Meets
      (· = .clockOverflow) (fun result _ => Surplus (level + (468 * count * second : Nat)) kinds ⟨result.1, result.2.board⟩) host := by
  induction count generalizing level scheduler watched host with
  | zero => exact .pure (by simpa using surplus)
  | succ count ih =>
    have more : level + (468 * (count + 1) * second : Nat) = level + (468 * second : Nat) + (468 * count * second : Nat) := by
      push_cast
      linarith
    rw [List.replicate_succ, Scheduler.answerAll, more]
    exact (next_surplus few cheats enough surplus).bind fun result heard surplus => ih surplus

/-- A machine that is only saved comes to a surplus for every save but the first. -/
theorem saves_surplus (count : Nat) (attended : Attended slack kinds ⟨scheduler, watched.board⟩) {host : ω} :
    (Scheduler.answerAll (Watched.completeFrame cheats) .strict budget (List.replicate (count + 1) .save) (scheduler, watched)).Meets
      (· = .clockOverflow) (fun result _ => ((468 * count * second : Nat) : Int) ≤ result.1.time .ppu) host := by
  rw [List.replicate_succ, Scheduler.answerAll]
  refine (first_surplus few cheats enough attended).bind fun result heard surplus => ?_
  refine (more_surplus few cheats enough count surplus).mono fun last _ surplus => ?_
  have ahead := surplus.resting.surplus
  rw [Int.zero_add] at ahead
  exact ahead

end surplus

end Watched

namespace Console

/-- A console that is saved by the strict method always answers, and in eight million saves no clock ever overflows. But every
save may move a clock further away from the reference, by less than a ten thousandth of a second, and so all clocks are below
a distance of `2 ^ 50` only for the first saves. A console that does nothing but save lets its display processor get ahead
every time, by a line less the instructions of the passes: in the end it is beyond that distance. -/
theorem drift_grows [Host ω] {configuration : Configuration} {cartridge : Cartridge} {seed : UInt64} {host : ω}
    {console : Console} (built : (Console.new configuration cartridge seed host).1 = .ok console) (strict : console.method = .strict)
    (wram : Vector UInt8 0x2000) (ram : Vector UInt8 0x1000) (cheats : List Cheat) (saves : Nat) (practical : saves ≤ 2 ^ 23) :
    ∃ enough, ∀ budget, enough ≤ budget → ∀ requests : List Request, Request.saves requests ≤ saves →
      ∀ (υ : Type) [Host υ] (listener : υ), ∃ last history heard,
        (console.holding wram ram cheats).watch budget requests listener = (.ok (last, history), heard) ∧
        (console.holding wram ram cheats).operate budget requests listener = (.ok last, heard) ∧
        Always (fun _ moment => ∀ id, |moment.after.scheduler.time id| ≤
          ((24648 + 1972 * Request.saves requests) * Clock.cpuFrequency.toNat : Nat)) history ∧
        (Request.saves requests ≤ 26571 → Always (fun _ moment => ∀ id, |moment.after.scheduler.time id| < 2 ^ 50) history) ∧
        (∀ count, requests = List.replicate (count + 1) .save →
          (468 * count * Clock.cpuFrequency.toNat : Nat) ≤ last.machine.scheduler.time .ppu ∧
          (112018 ≤ count → 2 ^ 50 ≤ last.machine.scheduler.time .ppu)) := by
  refine ⟨Machine.ample (saves * (1972 * second)) + Machine.vast + 1, fun budget enough requests fewer υ _ listener => ?_⟩
  have fresh := fresh_of_built built wram ram cheats
  obtain ⟨few, _⟩ := new_eq_ok built
  have frequency : Clock.cpuFrequency.toNat = second := rfl
  have moved : Request.saves requests * (1972 * second) ≤ saves * (1972 * second) := Nat.mul_le_mul_right _ fewer
  have small : 0 + Request.saves requests * (1972 * second) ≤ 2 ^ 59 := by
    have most := Nat.mul_le_mul_right (1972 * second) practical
    simp only [second] at moved most ⊢
    omega
  have room : Machine.ample (0 + Request.saves requests * (1972 * second)) + Machine.vast < budget := by
    have wide := Machine.ample_mono moved
    rw [Nat.zero_add]
    omega
  have answers : (Scheduler.answerAll (Watched.completeFrame cheats) .strict budget requests
      ((console.holding wram ram cheats).machine.scheduler, ⟨(console.holding wram ram cheats).machine.board, []⟩)).Meets _ _ listener :=
    Watched.answers few cheats (strict_steering few) requests small room fresh.attended Always.nil
  obtain ⟨result, heard, returned, surveyed⟩ := answers.exists_ok
  obtain ⟨scheduler, watched⟩ := result
  have answered := returned
  rw [← strict] at returned
  have seen : (console.holding wram ram cheats).watch budget requests listener = _ := watch_eq_ok returned
  have near : ∀ id, ∀ {scheduler : Scheduler}, scheduler.Paced (0 + Request.saves requests * (1972 * second)) cartridge.coprocessors →
      |scheduler.time id| ≤ ((24648 + 1972 * Request.saves requests) * second : Nat) := by
    intro id scheduler paced
    have distance := paced.distance_le id
    simp only [second] at distance ⊢
    omega
  refine ⟨_, watched.history, heard, seen, operate_of_watch seen, ?_, ?_, ?_⟩
  · exact Always.imp surveyed fun _ _ paced id => near id paced
  · intro early
    refine Always.imp surveyed fun _ _ paced id => Int.lt_of_le_of_lt (near id paced) ?_
    simp only [second]
    omega
  · rintro count rfl
    have enough : Machine.vast < budget := by omega
    have ahead := (Watched.saves_surplus few cheats enough count fresh.attended).of_ok answered
    refine ⟨ahead, fun often => ?_⟩
    simp only [second] at ahead
    change _ ≤ scheduler.time .ppu
    omega

/-- A console with two coprocessors that is saved so often. -/
theorem drift_grows_switched_on : ∃ console : Console, (Console.new ⟨.strict, .low, []⟩ sample.cartridge 0 ()).1 = .ok console ∧
    console.method = .strict ∧ ∃ enough last heard,
      (console.holding (Vector.replicate 0x2000 2) (Vector.replicate 0x1000 1) []).operate enough (List.replicate 112019 .save) () =
        (.ok last, heard) ∧ 2 ^ 50 ≤ last.machine.scheduler.time .ppu := by
  have built := @new_eq Unit _ sample.cartridge rfl ⟨.strict, .low, []⟩ 0 ()
  obtain ⟨enough, grows⟩ := drift_grows built rfl (Vector.replicate 0x2000 2) (Vector.replicate 0x1000 1) [] 112019 (by decide)
  obtain ⟨last, _, heard, _, operated, _, _, ahead⟩ :=
    grows enough (Nat.le_refl _) (List.replicate 112019 .save) (Nat.le_of_eq (Request.saves_replicate 112019)) Unit ()
  exact ⟨_, built, rfl, enough, last, heard, operated, (ahead 112018 rfl).2 (Nat.le_refl _)⟩

end Console
end MultiClock
