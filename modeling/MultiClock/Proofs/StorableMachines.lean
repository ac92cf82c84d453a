import MultiClock.Proofs.FrameCadence

/-! What a host finds between two calls, whatever was loaded before. Its registers are ones that a snapshot may hold: a chip that is parked
has no work that they could have grown in, and a frame completes while the reference waits for the display processor. -/

namespace MultiClock

open Snapshot Visit

variable {loads : Loads} {kinds : List CoprocessorKind}

namespace Board

/-- The registers of all chips are ones that a snapshot may hold. -/
def Storable (board : Board) : Prop := ∀ id, board.Ranged id

variable {board : Board} {id : ThreadId}

theorem Fits.rested_ranged (fits : board.Fits loads kinds) (rested : board.Rested id) : board.Ranged id := by
  cases id with
  | cpu =>
    have units := fits.cpu.units
    rw [show board.cpu.continuation = .idle from rested] at units
    exact Nat.le_trans units (by cases loads <;> decide)
  | ppu =>
    have line := fits.ppu
    rw [Ppu.Bounded, ppu_rested rested] at line
    exact Nat.le_trans line (by cases loads <;> decide)
  | smp | coprocessor => trivial

/-- A slice leaves the registers of other chips as they are. -/
theorem ranged_of_slice {acting : ThreadId} {later : Board} {scheduler after : Scheduler} {notices : List Notice}
    (sliced : ChipSet.slice acting board scheduler = .ok (later, after, notices)) (other : acting ≠ id) (ranged : board.Ranged id) :
    later.Ranged id := by
  obtain ⟨cpu, _, ppu, _⟩ := (slice_keeps acting board scheduler).of_ok sliced
  cases id with
  | cpu =>
    rw [Ranged, cpu other]
    exact ranged
  | ppu =>
    rw [Ranged, ppu other]
    exact ranged
  | smp | coprocessor => trivial

end Board

namespace Machine

/-- The registers of a parked chip are ones that a snapshot may hold, and one that is parked while it is in control has no work. -/
structure Orderly (machine : Machine) : Prop where
  ranged : ∀ id, machine.scheduler.state? id = some .parked → machine.board.Ranged id
  rested : machine.scheduler.entered = true → machine.scheduler.state? machine.scheduler.active = some .parked →
    machine.board.Rested machine.scheduler.active

variable {machine : Machine}

/-- Nobody who was just given control is parked. -/
theorem orderly_transferTo (ranged : ∀ id, machine.scheduler.state? id = some .parked → machine.board.Ranged id) (target : ThreadId)
    (entered : Bool) : Orderly ⟨{ machine.scheduler.transferTo target with entered }, machine.board⟩ := by
  have states (id : ThreadId) : ({ machine.scheduler.transferTo target with entered } : Scheduler).state? id =
      if target = id then (machine.scheduler.state? id).map Thread.State.release else machine.scheduler.state? id :=
    machine.scheduler.state?_transferTo target id
  refine ⟨fun id parked => ?_, fun _ parked => ?_⟩
  · rw [states] at parked
    split at parked
    next => exact absurd parked (Thread.State.map_release_ne_parked _)
    next => exact ranged id parked
  · rw [states, if_pos (by rfl)] at parked
    exact absurd parked (Thread.State.map_release_ne_parked _)

theorem Orderly.slice (few : kinds.length ≤ Cartridge.maxCoprocessors) (orderly : machine.Orderly) (sound : machine.Sound loads kinds)
    (inside : machine.scheduler.entered = true) {board : Board} {scheduler : Scheduler} {notices : List Notice}
    (sliced : ChipSet.slice machine.scheduler.active machine.board machine.scheduler = .ok (board, scheduler, notices)) :
    Orderly ⟨scheduler, board⟩ := by
  obtain ⟨action, does, _, _, turns, fits⟩ :=
    (Board.slice_comes loads kinds machine.board machine.scheduler machine.scheduler.active).of_ok sliced
  have indexed := Scheduler.indexed_of_wiring few sound.wired
  have active : scheduler.active = machine.scheduler.active := (does.kept indexed).active
  have rested : scheduler.state? machine.scheduler.active = some .parked → board.Rested machine.scheduler.active := by
    intro parked
    rw [does.state? indexed, if_pos rfl] at parked
    refine turns.rested_self (fun unchanged => ?_) fun running => ?_
    · rw [unchanged, Option.none_or] at parked
      exact orderly.rested inside parked
    · rw [running] at parked
      cases parked
  refine ⟨fun id parked => ?_, fun _ parked => ?_⟩
  · by_cases same : machine.scheduler.active = id
    · apply (fits sound.fits).rested_ranged
      exact same ▸ rested (same.symm ▸ parked)
    · rw [show scheduler.state? id = machine.scheduler.state? id by rw [does.state? indexed, if_neg same]] at parked
      exact Board.ranged_of_slice sliced same (orderly.ranged id parked)
  · rw [active] at parked ⊢
    exact rested parked

/-- Whatever happens to a machine, it stays so. -/
theorem Orderly.through (few : kinds.length ≤ Cartridge.maxCoprocessors) {start now : Machine} (sound : start.Sound loads kinds)
    (orderly : start.Orderly) (through : Through start now) : now.Orderly := by
  -- Only a slice changes the registers that a snapshot is strict about.
  induction through with
  | here => exact orderly
  | mode _ set ih =>
    simp only [Scheduler.setMode] at set
    split at set
    next => cases set
    next =>
      cases set
      exact ⟨ih.ranged, ih.rested⟩
  | active _ set ih =>
    simp only [Scheduler.setActive] at set
    split at set
    next => cases set
    next outside =>
      split at set
      next => cases set
      next =>
        cases set
        exact ⟨ih.ranged, fun inside => absurd inside outside⟩
  | clear _ ih => exact ⟨ih.ranged, ih.rested⟩
  | enter _ _ ih => exact orderly_transferTo ih.ranged _ true
  | slice through inside sliced ih => exact ih.slice few (sound.through few through) inside sliced
  | @resume now target _ _ ih => exact orderly_transferTo ih.ranged target now.scheduler.entered
  | leave _ _ ih => exact ⟨ih.ranged, fun inside => absurd inside Bool.false_ne_true⟩
  | frame _ _ _ ih =>
    refine ⟨fun id parked => ?_, fun inside parked => ?_⟩
    · have ranged := ih.ranged id parked
      cases id <;> exact ranged
    · have rested := ih.rested inside parked
      generalize Scheduler.active _ = id at rested ⊢
      cases id <;> exact rested

/-- Normal execution. While the display processor is in control, the reference has no more units than a snapshot may hold, and no
frame is handed over beyond its last line. -/
structure Pausable (machine : Machine) : Prop where
  mode : machine.scheduler.mode = .run
  reference : machine.scheduler.active = .ppu → machine.board.Ranged .cpu
  picture : machine.board.ppu.continuation = .frame → machine.board.Ranged .ppu

theorem Pausable.reference_turn {before after : Machine} {action : Action} (pausable : before.Pausable) (sound : before.Sound loads kinds)
    (ready : before.Inside) (took : Took before after action) (active : after.scheduler.active = .ppu) : after.board.Ranged .cpu := by
  rw [took.active] at active
  cases took.acts sound ready with
  | reference reference moves =>
    cases moves with
    | call _ _ _ _ _ catching _ _ _ _ _ units =>
      have resting := sound.fits.cpu.units
      rw [catching] at resting
      rw [Board.Ranged, units]
      exact Nat.le_trans resting (by cases loads <;> decide)
    | ask _ _ _ _ accessed => exact absurd active (Cpu.accessed_ne_picture accessed)
    | stop | pass | step | complete | caughtUp => cases reference.symm.trans active
  | dependent actor advances cpu =>
    cases advances with
    | resume => cases active
    | rest | step | stop | pass | passStep | frame =>
      rw [Board.Ranged, cpu]
      exact pausable.reference active

variable {scheduler later middle : Scheduler} {board moved : Board} {action : Action} {notices : List Notice}

theorem Pausable.picture_turn (few : kinds.length ≤ Cartridge.maxCoprocessors) (pausable : Pausable ⟨scheduler, board⟩)
    (sound : Sound loads kinds ⟨scheduler, board⟩) (ready : Inside ⟨scheduler, board⟩)
    (sliced : Sliced (fun board => board) loads kinds scheduler board action later moved middle notices)
    (raised : moved.ppu.continuation = .frame) : moved.Ranged .ppu := by
  by_cases drawing : scheduler.active = .ppu
  · have shown := sliced.sliced
    rw [drawing] at shown
    have frames := (board.slice_frames scheduler (Scheduler.indexed_of_wiring few sound.wired) ready.free).of_ok shown
    split at frames
    next =>
      rw [frames.2] at raised
      cases raised
    next =>
      rw [Board.Ranged, frames.2 raised]
      decide
  · have same := ((board.slice_keeps scheduler.active scheduler).of_ok sliced.sliced).2.2.1 drawing
    rw [same] at raised
    rw [Board.Ranged, same]
    exact pausable.picture raised

theorem Pausable.turn (few : kinds.length ≤ Cartridge.maxCoprocessors) (pausable : Pausable ⟨scheduler, board⟩)
    (sound : Sound loads kinds ⟨scheduler, board⟩) (ready : Inside ⟨scheduler, board⟩)
    (sliced : Sliced (fun board => board) loads kinds scheduler board action later moved middle notices) : Pausable ⟨later, moved⟩ where
  mode := sliced.took.acted.mode.trans pausable.mode
  reference := pausable.reference_turn sound ready sliced.took
  picture := pausable.picture_turn few sound ready sliced

/-- A slice that hands control back to the host hands over a frame, and then all registers may be stored. -/
theorem Pausable.leaves (few : kinds.length ≤ Cartridge.maxCoprocessors) (pausable : Pausable ⟨scheduler, board⟩)
    (sound : Sound loads kinds ⟨scheduler, board⟩) (ready : Inside ⟨scheduler, board⟩)
    (sliced : Sliced (fun board => board) loads kinds scheduler board action later moved middle notices) (leaves : action.leaves = true) :
    later.event = .frame ∧ moved.Storable := by
  have framed : action = .frame := by
    cases action with
    | rest | step | pass | passStep | resume => cases leaves
    | stop => exact absurd rfl (sliced.took.goes_on pausable.mode)
    | frame => rfl
  subst framed
  have drawing := sliced.took.frame_picture sound ready
  have after := pausable.turn few sound ready sliced
  have drawn := sliced.draws Board.wraps few sound ready
  rw [if_pos ((sliced.raises Board.wraps few sound ready).mpr rfl)] at drawn
  obtain ⟨_, raised, handed⟩ := drawn
  refine ⟨sliced.took.event_eq rfl rfl, fun id => ?_⟩
  cases id with
  | cpu => exact after.reference (sliced.took.active.trans drawing)
  | ppu =>
    rw [Board.Ranged, handed]
    exact pausable.picture raised
  | smp | coprocessor => trivial

variable [Host ω]

/-- A machine that was driven to a save has all threads parked. -/
theorem runToSave_storable (few : kinds.length ≤ Cartridge.maxCoprocessors) (sound : machine.Sound loads kinds) (outside : machine.Outside)
    (storable : machine.board.Storable) (cheats : List Cheat) (budget : Nat) (method : SaveMethod) {host : ω} :
    (Save.runToSave (Board.completeFrame cheats) budget method machine.scheduler machine.board).Meets (· ≠ .notQuiescent)
      (fun driving _ => driving.chips.Storable) host := by
  have delivers : (Save.runToSave (Board.completeFrame cheats) budget method machine.scheduler machine.board).Meets _ _ host :=
    Save.runToSave_delivers Board.disciplined (.anything (Board.completeFrame cheats)) method
      (Scheduler.indexed_of_wiring few sound.wired) machine.board trivial
  refine (delivers.and (runToSave_through few sound cheats budget method)).mono ?_
  intro driving heard driven
  obtain ⟨delivered, through⟩ := driven
  have start : machine.Orderly := ⟨fun id _ => storable id, fun inside => absurd (outside.entered.symm.trans inside) (by simp)⟩
  have orderly := start.through few sound through
  have last := sound.through few through
  intro id
  cases found : driving.scheduler.thread? id with
  | none => exact last.fits.rested_ranged (last.rested_missing (by rw [Scheduler.state?, found, Option.map_none]))
  | some thread =>
    have parked := (parked_of_quiescent (Scheduler.indexed_of_wiring few last.wired) delivered.quiescent found).1
    exact orderly.ranged id (parked ▸ Scheduler.state?_eq found)

/-- A run comes back with a frame. -/
theorem enter_storable (few : kinds.length ≤ Cartridge.maxCoprocessors) (sound : machine.Sound loads kinds) (outside : machine.Outside)
    (directed : machine.Directed) (storable : machine.board.Storable) (budget : Nat) {host : ω} :
    (machine.scheduler.enter budget machine.board).Meets (fun _ => True)
      (fun result _ => result.1.event = .frame ∧ result.2.Storable) host := by
  refine Scheduler.enter_meets outside.entered directed.active ?_
  refine Scheduler.runSlices_keeps
    (fun scheduler board => Sound loads kinds ⟨scheduler, board⟩ ∧ Inside ⟨scheduler, board⟩ ∧ Pausable ⟨scheduler, board⟩)
    (fun scheduler board => scheduler.event = .frame ∧ board.Storable) trivial ?_ budget
    ⟨(sound.transferTo _).withScheduler rfl fun _ => rfl, .entering directed.active, outside.mode, fun _ => storable .cpu,
      fun _ => storable .ppu⟩
  intro scheduler board holds
  obtain ⟨sound, ready, pausable⟩ := holds
  refine sound.slice_turned Board.wraps few ready (fun _ => trivial) _ _ ?_
  intro action later moved middle notices sliced
  split
  next leaves => exact pausable.leaves few sound ready sliced leaves
  next stays =>
    exact ⟨sliced.sound, sliced.took.inside (Bool.eq_false_iff.mpr stays), pausable.turn few sound ready sliced⟩

theorem run_storable (few : kinds.length ≤ Cartridge.maxCoprocessors) (sound : machine.Sound loads kinds) (outside : machine.Outside)
    (directed : machine.Directed) (storable : machine.board.Storable) (budget : Nat) (cheats : List Cheat) {host : ω} :
    (machine.run budget cheats).Meets (fun _ => True) (fun later _ => later.board.Storable) host := by
  cases budget with
  | zero => exact .throw trivial
  | succ rounds =>
    rw [run, run.rounds]
    refine (enter_storable few sound outside directed storable (rounds + 1)).bind ?_
    intro result heard framed
    obtain ⟨scheduler, board⟩ := result
    obtain ⟨event, storable⟩ := framed
    simp only at event
    simp only [event]
    have completed : (board.completeFrame cheats heard).1.Storable := by
      intro id
      have ranged := storable id
      cases id <;> exact ranged
    exact (Run.Meets.lift completed).bind fun _ _ storable => .pure storable

end Machine

namespace Console

variable {console : Console}

theorem Steady.load_storable [Host ω] (steady : console.Steady .any kinds) {later : Console} {seed : UInt64} {data : Array UInt8}
    {host heard : ω} (returned : console.load seed data host = (.ok (.ok (), later), heard)) : later.machine.board.Storable := by
  obtain ⟨_, impossible, _⟩ | ⟨_, header, machine, settled, body, settles, same⟩ := load_eq_ok returned
  · cases impossible
  · have measured := steady.measured header.portable
    obtain ⟨sized, sized_eq⟩ : ∃ sized, (console.snapshotSize header.portable).2 = sized := ⟨_, rfl⟩
    rw [sized_eq] at measured body same
    obtain ⟨_, _, visited⟩ := readBody_visited measured.few measured.carries body
    obtain ⟨sound, outside, directed, _⟩ := readBody_sound measured.few measured.carries body
    obtain ⟨_, board, _⟩ := settleLoaded_sound sound outside directed settles
    rw [same]
    exact board ▸ visited.ranged

theorem Steady.measured_storable (steady : console.Steady loads kinds) (portable : Bool) :
    (console.snapshotSize portable).2.machine.board.Storable := by
  obtain ⟨_, visited⟩ := Console.measured portable steady.sound
  obtain ⟨sized, sized_eq⟩ : ∃ sized, (console.machine.measure portable).2 = sized := ⟨_, rfl⟩
  rw [snapshotSize_eq, sized_eq]
  rw [sized_eq] at visited
  exact visited.ranged

/-- A host only finds machines whose registers a snapshot may hold. -/
theorem Reached.storable (reached : console.Reached .any kinds) : console.machine.board.Storable := by
  induction reached with
  | powered carries built =>
    obtain ⟨few, _, machine⟩ := new_eq_ok built
    rw [machine]
    exact fun id => (Machine.new_fresh few _ _).sound.fits.ranged id
  | rebooted reached =>
    rw [powerOn_eq]
    exact fun id => (reached.steady.sound.reboot reached.steady.outside _ _).sound.fits.ranged id
  | ran reached returned ih =>
    rw [run_eq] at returned
    obtain ⟨machine, _, ran, same⟩ := Run.bind_eq_ok returned
    cases same
    have steady := reached.steady
    exact (Machine.run_storable steady.few steady.sound steady.outside steady.directed ih _ _).of_ok ran
  | chosen _ _ ih => exact ih
  | driven reached returned ih =>
    rw [runToSave_eq] at returned
    obtain ⟨driving, _, drove, same⟩ := Run.bind_eq_ok returned
    cases same
    have steady := reached.steady
    exact (Machine.runToSave_storable steady.few steady.sound steady.outside ih _ _ _).of_ok drove
  | measured portable reached => exact reached.steady.measured_storable portable
  | saved reached returned =>
    obtain ⟨driven, steady, written⟩ := reached.steady.save_drives returned
    obtain ⟨_, last, _, visited, same⟩ := writeSnapshot_visits steady.sound written
    rw [same]
    exact visited.ranged
  | restored _ reached _ returned => exact reached.steady.load_storable returned
  | accepted _ reached returned => exact reached.steady.load_storable returned
  | refused reached returned ih =>
    obtain ⟨_, _, _, ⟨_, same⟩ | ⟨header, _, same⟩⟩ | ⟨impossible, _⟩ := load_eq_ok returned
    · exact same ▸ ih
    · rw [same]
      exact reached.steady.measured_storable header.portable
    · cases impossible
  | cheated _ _ ih => exact ih
  | cleared _ ih => exact ih

end Console
end MultiClock
