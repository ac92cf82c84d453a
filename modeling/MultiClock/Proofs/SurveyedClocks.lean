import MultiClock.Proofs.SteeredPacing
import MultiClock.Proofs.Watching

/-! Where the clocks are after every single slice, while a machine completes frames and takes saves by either method. The
slack says how far the saves so far may have moved dependents ahead. Frames add nothing to it, and neither do fast saves. -/

namespace MultiClock

variable {kinds : List CoprocessorKind} {slack : Nat}

theorem Always.imp {holds other : List Moment → Moment → Prop} {history : List Moment} (always : Always holds history)
    (follows : ∀ earlier moment, holds earlier moment → other earlier moment) : Always other history :=
  fun earlier moment later split => follows earlier moment (always earlier moment later split)

/-- The clocks are those of a machine of these coprocessors that keeps its pace. Transfers of control do not matter. -/
def Scheduler.Paced (slack : Nat) (kinds : List CoprocessorKind) (scheduler : Scheduler) : Prop :=
  ∃ machine : Machine, machine.Sound .own kinds ∧ machine.Pacing slack .own kinds ∧
    scheduler.shape = machine.scheduler.shape ∧ ∀ id, scheduler.time id = machine.scheduler.time id

theorem Scheduler.Paced.relax {scheduler : Scheduler} (paced : scheduler.Paced slack kinds) (more : Nat) :
    scheduler.Paced (slack + more) kinds := by
  obtain ⟨machine, sound, pacing, same⟩ := paced
  exact ⟨machine, sound, pacing.relax more, same⟩

/-- The clocks kept their pace after every slice so far. -/
abbrev Surveyed (slack : Nat) (kinds : List CoprocessorKind) (history : List Moment) : Prop :=
  Always (fun _ moment => moment.after.scheduler.Paced slack kinds) history

theorem Surveyed.relax {history : List Moment} (surveyed : Surveyed slack kinds history) (more : Nat) :
    Surveyed (slack + more) kinds history :=
  Always.imp surveyed fun _ _ paced => paced.relax more

namespace Machine

/-- Right after a slice the clocks stand where they do once control is transferred. -/
theorem Sliced.paced [ChipSet σ] {board : σ → Board} (wraps : ChipSet.Wraps board) {scheduler : Scheduler} {chips : σ}
    {action : Action} {later middle : Scheduler} {moved : σ} {notices : List Notice}
    (sliced : Sliced board .own kinds scheduler chips action later moved middle notices)
    (pacing : Pacing slack .own kinds ⟨later, board moved⟩) : middle.Paced slack kinds := by
  obtain ⟨shape, times⟩ := sliced.alike wraps
  exact ⟨⟨later, board moved⟩, sliced.sound, pacing, shape.symm, fun id => (congrFun times id).symm⟩

/-- The display processor has control only because the reference lets everybody catch up. -/
def Drawing (machine : Machine) : Prop :=
  machine.scheduler.active = .ppu → ∃ next, machine.board.cpu.continuation = .catchup next

theorem Drawing.turn {before after : Machine} {action : Action} (drawing : before.Drawing) (sound : before.Sound .own kinds)
    (ready : before.Inside) (took : Took before after action) : after.Drawing := by
  intro active
  rw [took.active] at active
  cases took.acts sound ready with
  | reference reference moves =>
    cases moves with
    | call _ later _ _ _ _ _ _ _ called => exact ⟨later, called⟩
    | ask _ _ _ _ accessed => exact absurd active (Cpu.accessed_ne_picture accessed)
    | stop | pass | step | complete | caughtUp => cases reference.symm.trans active
  | dependent actor advances cpu =>
    cases advances with
    | resume => cases active
    | rest | step | stop | pass | passStep | frame =>
      rw [cpu]
      exact drawing active

/-- A machine between two requests. Either everybody is level with the reference or ahead of it, or the display processor
has just completed a frame. -/
structure Attended (slack : Nat) (kinds : List CoprocessorKind) (machine : Machine) : Prop where
  running : machine.Running slack .own kinds
  outside : machine.scheduler.entered = false
  handed : machine.Handed slack kinds
  turn : machine.scheduler.active = .cpu ∧ (∀ id, id ≠ .cpu → 0 ≤ machine.scheduler.time id) ∨
    machine.scheduler.active = .ppu ∧ ∃ next, machine.board.cpu.continuation = .catchup next

theorem Fresh.attended {machine : Machine} (fresh : machine.Fresh kinds) : machine.Attended 0 kinds where
  running := fresh.running
  outside := fresh.entered
  handed := by
    refine ⟨fun id dependent released => ?_, fun dependent => absurd fresh.active dependent⟩
    cases fresh.parked id .released released
  turn := .inl ⟨fresh.active, fun id _ => Int.le_of_eq (fresh.level id).symm⟩

theorem Attended.drawing {machine : Machine} (attended : machine.Attended slack kinds) : machine.Drawing := by
  intro active
  rcases attended.turn with ⟨reference, _⟩ | ⟨_, catching⟩
  · cases reference.symm.trans active
  · exact catching

theorem running_of_asleep {machine : Machine} {id : ThreadId} (awake : machine.asleep id = 0) :
    machine.scheduler.state? id = some .running := by
  by_contra resting
  rw [Machine.asleep, if_neg resting] at awake
  cases awake

/-- While the reference lets others catch up, it is in the middle of its instruction. -/
theorem Attended.reference_running {machine : Machine} (attended : machine.Attended slack kinds) {next : UInt8}
    (catching : machine.board.cpu.continuation = .catchup next) : machine.scheduler.state? .cpu = some .running :=
  running_of_asleep (attended.running.sound.reference_running (by simp [catching]))

theorem Attended.drivable {scheduler : Scheduler} {board : Board} (attended : Attended slack kinds ⟨scheduler, board⟩) :
    (Save.steered scheduler).Drivable .cpu := by
  intro _
  rcases attended.turn with ⟨_, level⟩ | ⟨_, next, catching⟩
  · exact .inr level
  · exact .inl (attended.reference_running catching)

/-- A save begins within the bounds. -/
theorem Attended.poised {scheduler : Scheduler} {board : Board} (attended : Attended slack kinds ⟨scheduler, board⟩) :
    Poised slack kinds ⟨Save.steered scheduler, board⟩ where
  pacing := by
    refine attended.running.pacing.same rfl (fun _ => rfl) rfl (fun _ => rfl) fun id late => ?_
    exact late.imp_right (Or.imp_right fun finishing => absurd finishing attended.running.not_finishing)
  prompt := attended.handed.prompt
  level := by
    rcases attended.turn with ⟨reference, _⟩ | ⟨_, next, catching⟩
    · exact .inl reference
    · refine .inr (.inr ⟨rfl, ?_, .inr ⟨next, catching⟩⟩)
      have running : (Save.steered scheduler).state? .cpu = some .running := attended.reference_running catching
      rw [running]
      decide

/-- A save that is over leaves nobody behind. -/
theorem Poised.attended {scheduler : Scheduler} {board : Board} (poised : Poised slack kinds ⟨scheduler, board⟩)
    (sound : Sound .own kinds ⟨scheduler, board⟩) (few : kinds.length ≤ Cartridge.maxCoprocessors)
    (outside : scheduler.entered = false) (quiescent : scheduler.quiescent = true) :
    Attended slack kinds ⟨{ scheduler with mode := .run, active := .cpu, desynchronized := false }, board⟩ := by
  have size : scheduler.threads.size = 3 + kinds.length := Scheduler.size_of_wiring sound.wired
  have level : ∀ id, id ≠ .cpu → 0 ≤ scheduler.time id := by
    intro id dependent
    cases found : scheduler.thread? id with
    | none => simp [Scheduler.time, found]
    | some thread =>
      have settled := (parked_of_quiescent (Scheduler.indexed_of_wiring few sound.wired) quiescent found).2
      rw [Scheduler.time_eq found]
      exact settled.resolve_left dependent
  refine ⟨⟨sound.withScheduler rfl sound.free, ⟨?_, ?_, ?_⟩, rfl, ?_, fun dependent => absurd rfl dependent⟩, outside,
    ⟨poised.prompt, fun dependent => absurd rfl dependent⟩, .inl ⟨rfl, level⟩⟩
  · exact poised.pacing.behind
  · intro id dependent _ _
    have floor : (0 : Int) ≤ slack + board.cpu.catchupUnits.toNat * scheduler.rate id := by positivity
    have level := level id dependent
    change -(slack + board.cpu.catchupUnits.toNat * scheduler.rate id : Int) ≤ scheduler.time id
    omega
  · exact poised.pacing.ahead
  · change ThreadId.cpu.index < scheduler.threads.size
    simp only [ThreadId.index]
    omega

end Machine

theorem Machine.ample_mono {less more : Nat} (fewer : less ≤ more) : Machine.ample less ≤ Machine.ample more := by
  unfold Machine.ample
  gcongr

/-- How a method of saving drives threads: whom it may drive, by what a drive may move a dependent further ahead, and by what
a whole save may do so. -/
structure Steering (kinds : List CoprocessorKind) (method : SaveMethod) (may : Scheduler → ThreadId → Prop) (cost : ThreadId → Nat)
    (step : Nat) : Prop where
  permits : Save.Permits .own Watched.board may method
  free : method = .fast → ∀ id, cost id = 0
  reference : ∀ scheduler : Scheduler, scheduler.Drivable .cpu → may scheduler .cpu
  begins : ∀ {slack scheduler board id}, Machine.Poised slack kinds ⟨scheduler, board⟩ → id.index < 3 + kinds.length →
    may scheduler id → Machine.Driven (slack + cost id) kinds ⟨{ scheduler with active := id }.entering, board⟩
  save : ∀ level, ∀ disturbances ≤ 2 + kinds.length, Save.raised cost (Save.bystanders kinds) level disturbances ≤ level + step
  limit : ∀ level ≤ 2 ^ 59, ∀ disturbances ≤ 1655, Save.raised cost (Save.bystanders kinds) level disturbances ≤ 2 ^ 60

/-- Drives of dependents do not get in the way of the reference. -/
theorem Save.Onward.drivable {before after : Save.Drive Watched} (onward : Save.Onward Watched.board before after)
    (drivable : before.scheduler.Drivable .cpu) : after.scheduler.Drivable .cpu := by
  intro reference
  rcases drivable reference with running | level
  · have awake : (before.machine Watched.board).asleep .cpu = 0 := if_pos running
    exact .inl (Machine.running_of_asleep (onward.asleep.trans awake))
  · exact .inr fun id dependent => Int.le_trans (level id dependent) (onward.forward id dependent)

/-- The saves among some requests. -/
def Request.saves : List Request → Nat
  | [] => 0
  | .run :: rest => saves rest
  | .save :: rest => saves rest + 1

theorem Request.saves_replicate (count : Nat) : Request.saves (List.replicate count .save) = count := by
  induction count with
  | zero => rfl
  | succ count ih => rw [List.replicate_succ, Request.saves, ih]

namespace Watched

open Machine

theorem surveyed_turn {scheduler : Scheduler} {watched : Watched} {action : Action} {later middle : Scheduler} {moved : Watched}
    {notices : List Notice} (surveyed : Surveyed slack kinds watched.history)
    (sliced : Sliced Watched.board .own kinds scheduler watched action later moved middle notices)
    (pacing : Pacing slack .own kinds ⟨later, moved.board⟩) : Surveyed slack kinds moved.history := by
  rw [history_of_slice sliced.sliced]
  exact surveyed.snoc (sliced.paced wraps pacing)

/-- What is kept while a frame is completed. -/
theorem upkeep [Host ω] (few : kinds.length ≤ Cartridge.maxCoprocessors) (cheats : List Cheat) :
    Upkeep (ω := ω) slack .own kinds Watched.board (Watched.completeFrame cheats) (fun scheduler watched =>
      Handed slack kinds ⟨scheduler, watched.board⟩ ∧ Drawing ⟨scheduler, watched.board⟩ ∧
        Surveyed slack kinds watched.history) where
  turn := by
    intro scheduler watched running ready kept action later moved middle notices sliced
    obtain ⟨handed, drawing, surveyed⟩ := kept
    have sound := running.sound
    have took := sliced.took
    have still := running.turn few ready took sliced.sound
    refine ⟨⟨?_, ?_⟩, drawing.turn sound ready took, surveyed_turn surveyed sliced still.pacing⟩
    · exact handed.prompt.turn sound ready took
    · exact handed.awake.turn took (took.goes_on running.mode)
  enter := by
    intro scheduler watched kept
    obtain ⟨handed, drawing, surveyed⟩ := kept
    exact ⟨handed.entering, drawing, surveyed⟩
  frame := by
    intro scheduler watched host kept
    obtain ⟨handed, drawing, surveyed⟩ := kept
    exact ⟨⟨handed.prompt, handed.awake⟩, drawing, surveyed⟩
  board := ⟨cheats, fun _ _ => rfl⟩

/-- What is kept while chips are driven to a save. -/
theorem keeps [Host ω] {permitted : Fault → Prop} (few : kinds.length ≤ Cartridge.maxCoprocessors) (cheats : List Cheat)
    {method : SaveMethod} {may : Scheduler → ThreadId → Prop} {cost : ThreadId → Nat} {step : Nat}
    (steering : Steering kinds method may cost step) :
    Save.Keeps (ω := ω) permitted .own kinds Watched.board (Watched.completeFrame cheats) may cost (· ≤ 2 ^ 60)
      (fun slack scheduler watched => Driven slack kinds ⟨scheduler, watched.board⟩ ∧ Surveyed slack kinds watched.history)
      (fun slack scheduler watched => Poised slack kinds ⟨scheduler, watched.board⟩ ∧ Surveyed slack kinds watched.history) where
  down _ _ room := Nat.le_trans (Nat.le_add_right _ _) room
  calm slack scheduler watched small steered kept wild := absurd (kept.1.pacing.calm few steered.sound small) wild
  begins slack scheduler watched id steered _ kept allowed := by
    refine ⟨steering.begins kept.1 ?_ allowed, kept.2.relax _⟩
    exact Scheduler.size_of_wiring steered.sound.wired ▸ steered.present
  turn := by
    intro slack scheduler watched steered ready kept action later moved middle notices sliced stays
    have driven := kept.1.turn few steered ready sliced.took sliced.sound stays
    exact ⟨driven, surveyed_turn kept.2 sliced driven.pacing⟩
  stop := by
    intro slack scheduler watched steered ready kept later moved middle notices sliced
    have poised := kept.1.stop few steered ready sliced.took sliced.sound
    exact ⟨poised, surveyed_turn kept.2 sliced poised.pacing⟩
  enter slack scheduler watched _ dependent kept := ⟨kept.1.entering dependent, kept.2⟩
  frame slack scheduler watched host kept := ⟨kept.1.completeFrame cheats host, kept.2⟩
  board := ⟨cheats, fun _ _ => rfl⟩

section answers

variable [Host ω] (few : kinds.length ≤ Cartridge.maxCoprocessors) (cheats : List Cheat) {method : SaveMethod} {budget : Nat}
include few

theorem answer_run (enough : ample slack < budget) (small : slack ≤ 2 ^ 60) {scheduler : Scheduler} {watched : Watched}
    (attended : Attended slack kinds ⟨scheduler, watched.board⟩) (surveyed : Surveyed slack kinds watched.history) {host : ω} :
    (Scheduler.answer (Watched.completeFrame cheats) method budget .run (scheduler, watched)).Meets (fun _ => False)
      (fun result _ => Attended slack kinds ⟨result.1, result.2.board⟩ ∧ Surveyed slack kinds result.2.history) host := by
  refine (attended.running.answers_run wraps few small (upkeep few cheats) enough method attended.outside
    ⟨attended.handed, attended.drawing, surveyed⟩).mono fun result heard ends => ?_
  obtain ⟨framed, handed, drawing, surveyed⟩ := ends
  exact ⟨⟨framed.running, framed.outside, handed, .inr ⟨framed.active, drawing framed.active⟩⟩, surveyed⟩

theorem answer_save {may : Scheduler → ThreadId → Prop} {cost : ThreadId → Nat} {step : Nat}
    (steering : Steering kinds method may cost step) (enough : vast < budget) (small : slack ≤ 2 ^ 59) {scheduler : Scheduler}
    {watched : Watched} (attended : Attended slack kinds ⟨scheduler, watched.board⟩)
    (surveyed : Surveyed slack kinds watched.history) {host : ω} :
    (Scheduler.answer (Watched.completeFrame cheats) method budget .save (scheduler, watched)).Meets (fun _ => False)
      (fun result _ => Attended (slack + step) kinds ⟨result.1, result.2.board⟩ ∧ Surveyed (slack + step) kinds result.2.history)
      host := by
  rw [Scheduler.answer]
  refine ((keeps few cheats steering).runToSave_meets slack wraps few enough steering.permits steering.free
    (steering.limit slack small) attended.running.sound attended.outside attended.running.present
    (steering.reference _ attended.drivable) ⟨attended.poised, surveyed⟩).bind ?_
  intro driving heard ends
  obtain ⟨disturbances, ended, most⟩ := ends
  obtain ⟨last, held, quiescent, chips, scheduler⟩ := ended.held
  obtain ⟨poised, surveyed⟩ := held.rest
  obtain ⟨rest, step⟩ := Nat.exists_eq_add_of_le (steering.save slack disturbances (most rfl))
  refine .pure ?_
  rw [scheduler, chips, step]
  have poised := poised.relax rest
  exact ⟨poised.attended held.steered.sound few held.outside quiescent, surveyed.relax rest⟩

/-- Whatever is asked of a machine, frames or saves, it answers, and its clocks keep their pace. -/
theorem answers {may : Scheduler → ThreadId → Prop} {cost : ThreadId → Nat} {step : Nat}
    (steering : Steering kinds method may cost step) (requests : List Request) (small : slack + Request.saves requests * step ≤ 2 ^ 59)
    (enough : ample (slack + Request.saves requests * step) + vast < budget) {scheduler : Scheduler} {watched : Watched}
    (attended : Attended slack kinds ⟨scheduler, watched.board⟩) (surveyed : Surveyed slack kinds watched.history) {host : ω} :
    (Scheduler.answerAll (Watched.completeFrame cheats) method budget requests (scheduler, watched)).Meets (fun _ => False)
      (fun result _ => Surveyed (slack + Request.saves requests * step) kinds result.2.history) host := by
  have saves : vast < budget := by omega
  -- Every save adds to the slack, so the bound is kept for what the slack will be at the end.
  induction requests generalizing slack scheduler watched host with
  | nil => exact .pure (surveyed.relax _)
  | cons request rest ih =>
    rw [Scheduler.answerAll]
    cases request with
    | run =>
      have runs : ample slack < budget := by
        have more := ample_mono (Nat.le_add_right slack (Request.saves (.run :: rest) * step))
        omega
      refine (answer_run few cheats runs (by omega) attended surveyed).bind fun result heard ends => ?_
      exact ih small enough ends.1 ends.2
    | save =>
      have more : slack + Request.saves (.save :: rest) * step = slack + step + Request.saves rest * step := by
        rw [Request.saves, Nat.add_mul]
        omega
      rw [more] at small enough ⊢
      refine (answer_save few cheats steering saves (by omega) attended surveyed).bind fun result heard ends => ?_
      exact ih small enough ends.1 ends.2

end answers

end Watched
end MultiClock
