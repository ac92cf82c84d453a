import MultiClock.Proofs.Pacing

/-! Normal execution. Nobody stops at a synchronization point, so control comes back to the host only when the picture
is complete, and the clocks stay within their bounds as long as the simulation lasts. -/

namespace MultiClock

variable {loads : Loads} {kinds : List CoprocessorKind} {slack : Nat}

/-- Only the picture raises frames. -/
theorem Board.frames_of_picture {board : Board} {id : ThreadId} (due : 0 < (board.workload id).frames) : id = .ppu := by
  cases id with
  | cpu => exact absurd due (Nat.lt_irrefl 0)
  | smp =>
    simp only [workload, Smp.workload] at due
    cases at_work : board.smp.continuation <;> rw [at_work] at due <;> exact absurd due (Nat.lt_irrefl 0)
  | ppu => rfl
  | coprocessor index =>
    simp only [workload] at due
    cases found : board.coprocessors[index.toNat]? with
    | none =>
      rw [found] at due
      exact absurd due (Nat.lt_irrefl 0)
    | some chip =>
      rw [found] at due
      cases chip with
      | multiplier unit =>
        simp only [Option.map_some, Option.getD_some, Coprocessor.workload, Multiplier.workload] at due
        cases at_work : unit.continuation <;> rw [at_work] at due <;> exact absurd due (Nat.lt_irrefl 0)
      | rtc clock =>
        simp only [Option.map_some, Option.getD_some, Coprocessor.workload, Rtc.workload] at due
        split at due <;> exact absurd due (Nat.lt_irrefl 0)

namespace Machine

/-- A machine in normal execution whose clocks are within their bounds. A dependent that is active in front of a new
unit of work is not too far ahead to start it. -/
structure Running (slack : Nat) (loads : Loads) (kinds : List CoprocessorKind) (machine : Machine) : Prop where
  sound : machine.Sound loads kinds
  pacing : machine.Pacing slack loads kinds
  mode : machine.scheduler.mode = .run
  present : machine.scheduler.active.index < machine.scheduler.threads.size
  starts : machine.scheduler.active ≠ .cpu → machine.board.workload machine.scheduler.active = .idle →
    machine.scheduler.time machine.scheduler.active ≤ slack + (paceOf kinds machine.scheduler.active).patience

variable {before after : Machine} {action : Action}

theorem Running.not_finishing {machine : Machine} (running : machine.Running slack loads kinds) : ¬ machine.Finishing := by
  intro finishing
  have mode := finishing.mode
  rw [running.mode] at mode
  cases mode

/-- In normal execution nobody stops. -/
theorem Took.goes_on (took : Took before after action) (normal : before.scheduler.mode = .run) : action ≠ .stop := by
  intro stops
  obtain ⟨thread, _, stays⟩ := took.stops stops
  exact stays (.inr (.inl normal))

/-- A dependent gets control only when it is behind, and keeps it in front of a new unit of work only while it is patient. -/
theorem Running.starts_turn (running : before.Running slack loads kinds) (ready : before.Inside)
    (took : Took before after action) (dependent : after.scheduler.active ≠ .cpu)
    (idle : after.board.workload after.scheduler.active = .idle) :
    after.scheduler.time after.scheduler.active ≤ slack + (paceOf kinds after.scheduler.active).patience := by
  -- Who gets control is behind. Who keeps it is ahead by no more than its patience.
  have late : ∀ id, id ≠ .cpu → before.scheduler.time id < 0 →
      before.scheduler.time id ≤ slack + (paceOf kinds id).patience := by
    intro id _ behind
    have patience := paceOf_patience kinds id
    omega
  rw [took.active] at dependent idle ⊢
  cases took.acts running.sound ready with
  | reference active moves =>
    cases moves with
    | stop | pass | step | complete | caughtUp => exact absurd active dependent
    | ask _ _ other _ _ behind | call _ _ _ other _ _ _ _ behind =>
      simp only [Action.next] at dependent ⊢
      rw [took.acted.dependents active other dependent]
      simpa [Action.units] using late other dependent behind
  | dependent actor advances =>
    cases advances with
    | resume => exact absurd rfl dependent
    | rest _ _ _ patient =>
      simp only [Action.next]
      have own := took.acted.own actor
      simp only [Action.units, Nat.zero_mul, Nat.cast_zero, Int.add_zero] at own
      have patient := patient running.mode
      omega
    | step _ _ _ working | passStep _ _ _ _ _ _ working | frame _ _ _ working =>
      simp only [Action.next] at idle
      rw [idle] at working
      exact absurd working (Nat.lt_irrefl 0)
    | pass _ _ long =>
      simp only [Action.next] at idle
      rw [idle] at long
      exact absurd long (Nat.lt_irrefl 0)
    | stop => exact absurd rfl (took.goes_on running.mode)

theorem Running.turn (few : kinds.length ≤ Cartridge.maxCoprocessors) (running : before.Running slack loads kinds)
    (ready : before.Inside) (took : Took before after action) (later : after.Sound loads kinds) :
    after.Running slack loads kinds where
  sound := later
  pacing := running.pacing.turn few running.sound later ready took fun dependent idle _ => running.starts dependent idle
  mode := took.acted.mode.trans running.mode
  present := took.present
  starts := running.starts_turn ready took

/-- Only the display processor hands over frames. -/
theorem Took.frame_picture (took : Took before after .frame) (sound : before.Sound loads kinds) (ready : before.Inside) :
    before.scheduler.active = .ppu := by
  cases took.acts sound ready with
  | reference _ moves => cases moves
  | dependent actor advances =>
    cases advances with
    | frame _ _ raised =>
      have due : 0 < (before.board.workload before.scheduler.active).frames := by omega
      exact Board.frames_of_picture due

/-- A run is over only with a frame. -/
theorem Running.leaves (running : before.Running slack loads kinds) (ready : before.Inside) (took : Took before after action)
    (leaves : action.leaves = true) :
    action = .frame ∧ after.scheduler.event = .frame ∧ after.scheduler.active = .ppu := by
  cases action with
  | rest | step | pass | passStep | resume => cases leaves
  | stop => exact absurd rfl (took.goes_on running.mode)
  | frame =>
    exact ⟨rfl, took.event_eq rfl rfl, took.active.trans (took.frame_picture running.sound ready)⟩

/-- Back with the host, with a complete picture. -/
structure Framed (slack : Nat) (loads : Loads) (kinds : List CoprocessorKind) (machine : Machine) : Prop where
  running : machine.Running slack loads kinds
  outside : machine.scheduler.entered = false
  event : machine.scheduler.event = .frame
  active : machine.scheduler.active = .ppu

/-- A slice in normal execution never breaks off. -/
theorem Running.slice_turned [ChipSet σ] {board : σ → Board} (wraps : ChipSet.Wraps board) {permitted : Fault → Prop}
    (few : kinds.length ≤ Cartridge.maxCoprocessors) (small : slack ≤ 2 ^ 60) {scheduler : Scheduler} {chips : σ}
    (running : Running slack loads kinds ⟨scheduler, board chips⟩) (ready : Inside ⟨scheduler, board chips⟩)
    (inside outside : Scheduler → σ → Prop)
    (stays : ∀ action later moved middle notices, Sliced board loads kinds scheduler chips action later moved middle notices →
      Running slack loads kinds ⟨later, board moved⟩ → Inside ⟨later, board moved⟩ → inside later moved)
    (goes : ∀ later moved middle notices, Sliced board loads kinds scheduler chips .frame later moved middle notices →
      Framed slack loads kinds ⟨later, board moved⟩ → outside later moved) :
    Meets permitted (Scheduler.Turned inside outside) (ChipSet.slice scheduler.active chips scheduler) := by
  have calm := running.pacing.calm few running.sound small
  refine running.sound.slice_turned wraps few ready (fun wild => absurd calm wild) inside outside ?_
  intro action later moved middle notices sliced
  have still := running.turn few ready sliced.took sliced.sound
  split
  next leaves =>
    obtain ⟨same, event, active⟩ := running.leaves ready sliced.took leaves
    subst same
    exact goes later moved middle notices sliced ⟨still, sliced.took.entered, event, active⟩
  next stay => exact stays action later moved middle notices sliced still (sliced.took.inside (Bool.eq_false_iff.mpr stay))

/-- Entering the simulation changes neither a clock nor any work. -/
theorem Running.enter {machine : Machine} (running : machine.Running slack loads kinds) :
    Running slack loads kinds
      ⟨{ machine.scheduler.transferTo machine.scheduler.active with entered := true }, machine.board⟩ where
  sound := (running.sound.transferTo _).withScheduler rfl fun _ => rfl
  pacing := by
    refine running.pacing.same (Scheduler.shape_transferTo _ _) (Scheduler.time_transferTo _ _) rfl (fun _ => rfl) ?_
    exact fun id late => late.imp_right (Or.imp_right fun finishing => absurd finishing running.not_finishing)
  mode := running.mode
  present := by
    have size := Scheduler.size_of_shape (Scheduler.shape_transferTo machine.scheduler machine.scheduler.active)
    exact size ▸ running.present
  starts dependent idle := by
    have time := Scheduler.time_transferTo machine.scheduler machine.scheduler.active machine.scheduler.active
    exact time ▸ running.starts dependent idle

theorem Inside.entering {machine : Machine} (present : machine.scheduler.active.index < machine.scheduler.threads.size) :
    Inside ⟨{ machine.scheduler.transferTo machine.scheduler.active with entered := true }, machine.board⟩ where
  entered := rfl
  free := rfl
  present := by
    have size := Scheduler.size_of_shape (Scheduler.shape_transferTo machine.scheduler machine.scheduler.active)
    exact size ▸ present

/-- What the host does at a frame concerns no clock and no work. -/
theorem Running.completeFrame [Host ω] {machine : Machine} (running : machine.Running slack loads kinds) (cheats : List Cheat)
    (host : ω) : Running slack loads kinds ⟨machine.scheduler, (machine.board.completeFrame cheats host).1⟩ where
  sound := running.sound.completeFrame cheats host
  pacing := by
    refine running.pacing.same rfl (fun _ => rfl) rfl (fun id => by cases id <;> rfl) fun id late => ?_
    exact late.imp_right (Or.imp_right fun finishing => absurd finishing running.not_finishing)
  mode := running.mode
  present := running.present
  starts dependent idle := by
    refine running.starts dependent (Eq.trans ?_ idle)
    generalize machine.scheduler.active = id
    cases id <;> rfl

/-- A run never breaks off, unless its host stops it. -/
theorem Running.enter_meets [Host ω] [ChipSet σ] {board : σ → Board} (wraps : ChipSet.Wraps board) {permitted : Fault → Prop}
    (few : kinds.length ≤ Cartridge.maxCoprocessors) (small : slack ≤ 2 ^ 60) (cut : permitted .exhausted)
    {scheduler : Scheduler} {chips : σ} (running : Running slack loads kinds ⟨scheduler, board chips⟩)
    (outside : scheduler.entered = false) (budget : Nat) {host : ω} :
    (scheduler.enter budget chips).Meets permitted (fun result _ => Framed slack loads kinds ⟨result.1, board result.2⟩) host := by
  refine Scheduler.enter_meets outside running.present ?_
  refine Scheduler.runSlices_keeps
    (fun scheduler chips => Running slack loads kinds ⟨scheduler, board chips⟩ ∧ Inside ⟨scheduler, board chips⟩)
    (fun scheduler chips => Framed slack loads kinds ⟨scheduler, board chips⟩) cut ?_ budget ⟨running.enter, .entering running.present⟩
  intro scheduler chips holds
  exact holds.1.slice_turned wraps few small holds.2 _ _ (fun _ _ _ _ _ _ still ready => ⟨still, ready⟩) fun _ _ _ _ _ => id

/-- A run is one entry, and what the host does at the frame. -/
theorem run_of_frame [Host ω] {machine : Machine} {scheduler : Scheduler} {board : Board} {budget : Nat} (some_slices : 0 < budget)
    (cheats : List Cheat) {host heard : ω} (entered : machine.scheduler.enter budget machine.board host = (.ok (scheduler, board), heard))
    (event : scheduler.event = .frame) : machine.run budget cheats host =
      (.ok ⟨scheduler, (board.completeFrame cheats heard).1⟩, (board.completeFrame cheats heard).2) := by
  obtain ⟨rounds, rfl⟩ := Nat.exists_eq_add_one.mpr some_slices
  rw [run, run.rounds, Run.bind_apply, entered]
  simp only [event]
  rfl

theorem Running.run_meets [Host ω] {permitted : Fault → Prop} (few : kinds.length ≤ Cartridge.maxCoprocessors)
    (small : slack ≤ 2 ^ 60) (cut : permitted .exhausted) {machine : Machine} (running : machine.Running slack loads kinds)
    (outside : machine.scheduler.entered = false) (budget : Nat) (cheats : List Cheat) {host : ω} :
    (machine.run budget cheats).Meets permitted (fun later _ => later.Framed slack loads kinds) host := by
  cases budget with
  | zero => exact .throw cut
  | succ rounds =>
    rw [run, run.rounds]
    refine (running.enter_meets Board.wraps few small cut outside (rounds + 1)).bind ?_
    rintro ⟨scheduler, board⟩ later ⟨running, outside, event, active⟩
    simp only at event
    simp only [event]
    exact (Run.Meets.lift ⟨running.completeFrame cheats later, outside, event, active⟩).bind fun _ _ framed => .pure framed

end Machine
end MultiClock
