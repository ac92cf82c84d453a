import MultiClock.Proofs.DriveTurns
import MultiClock.Proofs.DriveRules

/-! Every drive comes to an end. A driven dependent always reaches its point undisturbed. The reference either does, or it
has less to do when it is driven again. -/

namespace MultiClock

variable {loads : Loads} {kinds : List CoprocessorKind}

abbrev Scheduler.entering (scheduler : Scheduler) : Scheduler := { scheduler.transferTo scheduler.active with entered := true }

namespace Machine

theorem asleep_entering (scheduler : Scheduler) (board : Board) (id : ThreadId) :
    asleep ⟨scheduler.entering, board⟩ id = asleep ⟨scheduler, board⟩ id := by
  refine asleep_congr ?_
  have states : scheduler.entering.state? id = _ := scheduler.state?_transferTo scheduler.active id
  rw [states]
  split
  · cases scheduler.state? id with
    | none => simp
    | some state => cases state <;> simp [Thread.State.release]
  · exact Iff.rfl

theorem burden_entering (scheduler : Scheduler) (board : Board) : burden ⟨scheduler.entering, board⟩ = burden ⟨scheduler, board⟩ := by
  unfold burden
  rw [asleep_entering]

theorem time_entering (scheduler : Scheduler) (id : ThreadId) : scheduler.entering.time id = scheduler.time id :=
  scheduler.time_transferTo scheduler.active id

theorem haul_entering (scheduler : Scheduler) (board : Board) : haul ⟨scheduler.entering, board⟩ = haul ⟨scheduler, board⟩ := by
  have unrest : ∀ id, unrest ⟨scheduler.entering, board⟩ id = unrest ⟨scheduler, board⟩ id := by
    intro id
    unfold unrest
    rw [asleep_entering, time_entering]
  unfold haul
  rw [burden_entering, funext unrest]

theorem Solvent.entering {stops frames : Nat} {scheduler : Scheduler} {board : Board} (solvent : Solvent stops frames ⟨scheduler, board⟩) :
    Solvent stops frames ⟨scheduler.entering, board⟩ := by
  unfold Solvent ledger at solvent ⊢
  rwa [burden_entering, time_entering]

theorem Solvent.completeFrame [Host ω] {stops frames : Nat} {scheduler : Scheduler} {board : Board}
    (solvent : Solvent stops frames ⟨scheduler, board⟩) (cheats : List Cheat) (host : ω) :
    Solvent stops frames ⟨scheduler, (board.completeFrame cheats host).1⟩ := by
  have work : (board.completeFrame cheats host).1.workload .ppu = board.workload .ppu := rfl
  unfold Solvent ledger at solvent ⊢
  rw [work]
  exact solvent

theorem Steered.entering {scheduler : Scheduler} {board : Board} (steered : Steered loads kinds ⟨scheduler, board⟩) :
    Steered loads kinds ⟨scheduler.entering, board⟩ where
  sound := (steered.sound.transferTo _).withScheduler rfl fun _ => rfl
  mode := steered.mode
  present := (Inside.entering steered.present).present

theorem Steered.completeFrame [Host ω] {scheduler : Scheduler} {board : Board} (steered : Steered loads kinds ⟨scheduler, board⟩)
    (cheats : List Cheat) (host : ω) : Steered loads kinds ⟨scheduler, (board.completeFrame cheats host).1⟩ :=
  ⟨steered.sound.completeFrame cheats host, steered.mode, steered.present⟩

theorem haul_completeFrame [Host ω] (scheduler : Scheduler) (board : Board) (cheats : List Cheat) (host : ω) :
    haul ⟨scheduler, (board.completeFrame cheats host).1⟩ = haul ⟨scheduler, board⟩ := by
  have works : ∀ id, (board.completeFrame cheats host).1.workload id = board.workload id := fun id => by cases id <;> rfl
  have unrest : ∀ id, unrest ⟨scheduler, (board.completeFrame cheats host).1⟩ id = unrest ⟨scheduler, board⟩ id := by
    intro id
    unfold unrest
    rw [works]
    rfl
  unfold haul
  rw [funext unrest]
  rfl

end Machine

namespace Save

open Machine

/-- What a drive of one thread carries along: an invariant of its slices, which may count the frames, and what holds when
the drive is over. -/
structure Carries [ChipSet σ] [Host ω] (permitted : Fault → Prop) (loads : Loads) (kinds : List CoprocessorKind) (board : σ → Board)
    (onFrame : σ → StateM ω σ) (thread : ThreadId) (inside : Nat → Scheduler → σ → Prop) (ended : Bool → Nat → Scheduler → σ → Prop) : Prop where
  calm : ∀ frames scheduler chips, Steered loads kinds ⟨scheduler, board chips⟩ → inside frames scheduler chips →
    ¬ scheduler.Calm → permitted .clockOverflow
  turn : ∀ frames scheduler chips, Steered loads kinds ⟨scheduler, board chips⟩ → Inside ⟨scheduler, board chips⟩ →
    inside frames scheduler chips → ∀ action later moved middle notices,
    Sliced board loads kinds scheduler chips action later moved middle notices → action ≠ .stop →
    inside (frames + action.frames) later moved
  stop : ∀ frames scheduler chips, Steered loads kinds ⟨scheduler, board chips⟩ → Inside ⟨scheduler, board chips⟩ →
    inside frames scheduler chips → ∀ later moved middle notices,
    Sliced board loads kinds scheduler chips .stop later moved middle notices →
    ended (decide (later.event = .synchronized ∧ later.active = thread)) frames later moved
  enter : ∀ frames scheduler chips, Steered loads kinds ⟨scheduler, board chips⟩ → scheduler.active ≠ .cpu →
    inside frames scheduler chips → inside frames scheduler.entering chips
  frame : ∀ frames scheduler chips (host : ω), inside frames scheduler chips → inside frames scheduler (onFrame chips host).1
  countable : ∀ frames scheduler chips, inside frames scheduler chips → frames < 2 ^ 32
  board : ∃ cheats, ∀ chips (host : ω), board (onFrame chips host).1 = ((board chips).completeFrame cheats host).1

namespace Carries

variable [ChipSet σ] [Host ω] {board : σ → Board} {onFrame : σ → StateM ω σ} {thread : ThreadId}
  {permitted : Fault → Prop} {inside : Nat → Scheduler → σ → Prop} {ended : Bool → Nat → Scheduler → σ → Prop}

/-- An entry ends with a frame, with less left to do, or because some thread stops at its point. -/
theorem enter_meets (carries : Carries permitted loads kinds board onFrame thread inside ended) (wraps : ChipSet.Wraps board)
    (few : kinds.length ≤ Cartridge.maxCoprocessors) {scheduler : Scheduler} {chips : σ}
    (steered : Steered loads kinds ⟨scheduler, board chips⟩) (outside : scheduler.entered = false) {frames : Nat}
    (begins : inside frames scheduler.entering chips) {budget : Nat} (enough : vast < budget) {host : ω} :
    (scheduler.enter budget chips).Meets permitted (fun result (_ : ω) =>
      Steered loads kinds ⟨result.1, board result.2⟩ ∧ result.1.entered = false ∧
      (result.1.event = .frame ∧ result.1.active ≠ .cpu ∧ inside (frames + 1) result.1 result.2 ∧
          haul ⟨result.1, board result.2⟩ < haul ⟨scheduler, board chips⟩ ∨
        result.1.event ≠ .frame ∧
          ended (decide (result.1.event = .synchronized ∧ result.1.active = thread)) frames result.1 result.2)) host := by
  refine Scheduler.enter_meets outside steered.present ?_
  have total := steered.haul_le few
  -- The haul never exceeds what it was at the entry, and there it is less than the budget of slices.
  refine Scheduler.runSlices_ends (ω := ω)
    (fun now moved => (Steered loads kinds ⟨now, board moved⟩ ∧ Inside ⟨now, board moved⟩) ∧ inside frames now moved ∧
      haul ⟨now, board moved⟩ ≤ haul ⟨scheduler, board chips⟩)
    (fun now moved => Steered loads kinds ⟨now, board moved⟩ ∧ now.entered = false ∧
      (now.event = .frame ∧ now.active ≠ .cpu ∧ inside (frames + 1) now moved ∧ haul ⟨now, board moved⟩ < haul ⟨scheduler, board chips⟩ ∨
        now.event ≠ .frame ∧ ended (decide (now.event = .synchronized ∧ now.active = thread)) frames now moved))
    (fun now moved => (haul ⟨now, board moved⟩).toNat) ?_
    ⟨⟨steered.entering, .entering steered.present⟩, begins, Int.le_of_eq (haul_entering _ _)⟩ ?_
  · intro now chips holds
    obtain ⟨⟨steered, ready⟩, carried, least⟩ := holds
    refine steered.sound.slice_turned wraps few ready (carries.calm frames now chips steered carried) _ _ ?_
    intro action later moved middle notices sliced
    have still := steered.turn sliced.took sliced.sound
    by_cases stops : action = .stop
    · subst stops
      have ends := carries.stop frames now chips steered ready carried later moved middle notices sliced
      refine ⟨still, sliced.took.entered, .inr ⟨?_, ends⟩⟩
      have event : later.event = _ := sliced.took.event_stop
      rw [event]
      split <;> simp
    · have lower := steered.turn_lowers few ready sliced.took stops
      have low := haul_nonneg ⟨later, board moved⟩
      have carried := carries.turn frames now chips steered ready carried action later moved middle notices sliced stops
      cases action with
      | stop => exact absurd rfl stops
      | frame =>
        have active : later.active = .ppu := sliced.took.active.trans (sliced.took.frame_picture steered.sound ready)
        exact ⟨still, sliced.took.entered, .inl ⟨sliced.took.event_eq rfl rfl, by simp [active], carried, by omega⟩⟩
      | rest | step | pass | passStep | resume =>
        refine ⟨⟨⟨still, sliced.took.inside rfl⟩, carried, ?_⟩, ?_⟩ <;> omega
  · simp only [haul_entering]
    omega

/-- Frames on the way do not end a drive. -/
theorem enterUntilPoint_meets (carries : Carries permitted loads kinds board onFrame thread inside ended) (wraps : ChipSet.Wraps board)
    (few : kinds.length ≤ Cartridge.maxCoprocessors) {budget : Nat} (enough : vast < budget) (rounds : Nat) {driving : Drive σ}
    (steered : Steered loads kinds ⟨driving.scheduler, board driving.chips⟩) (outside : driving.scheduler.entered = false)
    (begins : inside driving.report.frames.toNat driving.scheduler.entering driving.chips)
    (room : (haul ⟨driving.scheduler, board driving.chips⟩).toNat < rounds) (desyncs : driving.report.desyncs.toNat + 1 < 2 ^ 32)
    {host : ω} :
    (enterUntilPoint onFrame budget thread rounds driving).Meets permitted (fun result _ =>
      Steered loads kinds ⟨result.2.scheduler, board result.2.chips⟩ ∧ result.2.scheduler.entered = false ∧
      ended result.1 result.2.report.frames.toNat result.2.scheduler result.2.chips ∧
      result.2.report.passes = driving.report.passes ∧
      result.2.report.desyncs.toNat = driving.report.desyncs.toNat + if result.1 then 0 else 1) host := by
  -- A frame on the way costs slices, so the haul bounds how often the drive is entered again.
  induction rounds generalizing driving host with
  | zero => omega
  | succ rounds ih =>
    obtain ⟨scheduler, chips, report⟩ := driving
    rw [enterUntilPoint]
    refine (carries.enter_meets wraps few steered outside begins enough).bind ?_
    rintro ⟨now, moved⟩ heard ⟨steered, outside, ⟨event, actor, carried, lower⟩ | ⟨event, ends⟩⟩
    · simp only at steered outside event actor carried lower ⊢
      rw [if_pos event]
      -- The invariant covers this frame as well, so there is room for it in the counter.
      refine (count_fits report.frames (carries.countable _ _ _ carried) heard).bind ?_
      rintro frames _ ⟨counted, rfl⟩
      obtain ⟨cheats, boards⟩ := carries.board
      have handed : Run.Meets permitted (fun (last : σ) (_ : ω) => Steered loads kinds ⟨now, board last⟩ ∧
          inside (report.frames.toNat + 1) now last ∧ haul ⟨now, board last⟩ = haul ⟨now, board moved⟩)
          (liftM (onFrame moved) : Run ω σ) heard := by
        refine .lift ⟨?_, carries.frame _ now moved heard carried, ?_⟩ <;> rw [boards]
        · exact steered.completeFrame cheats heard
        · exact haul_completeFrame now (board moved) cheats heard
      refine handed.bind fun last heard held => ?_
      obtain ⟨steered, carried, same⟩ := held
      rw [← counted] at carried
      refine @ih ⟨now, last, { report with frames }⟩ steered outside (carries.enter _ now last steered actor carried) ?_ desyncs heard
      have low := haul_nonneg ⟨now, board last⟩
      simp only at room ⊢
      omega
    · simp only at steered outside event ends ⊢
      rw [if_neg event]
      split
      next undisturbed =>
        rw [decide_eq_true undisturbed] at ends
        exact .pure ⟨steered, outside, ends, rfl, rfl⟩
      next disturbed =>
        rw [decide_eq_false disturbed] at ends
        refine (count_fits report.desyncs desyncs heard).bind ?_
        rintro count _ ⟨counted, rfl⟩
        exact .pure ⟨steered, outside, ends, rfl, counted⟩

theorem drive_meets (carries : Carries permitted loads kinds board onFrame thread inside ended) (wraps : ChipSet.Wraps board)
    (few : kinds.length ≤ Cartridge.maxCoprocessors) {budget : Nat} (enough : vast < budget) {driving : Drive σ}
    (steered : Steered loads kinds ⟨driving.scheduler, board driving.chips⟩) (outside : driving.scheduler.entered = false)
    (present : thread.index < driving.scheduler.threads.size)
    (begins : inside driving.report.frames.toNat { driving.scheduler with active := thread }.entering driving.chips)
    (desyncs : driving.report.desyncs.toNat + 1 < 2 ^ 32) {host : ω} :
    (drive onFrame budget thread driving).Meets permitted (fun result _ =>
      Steered loads kinds ⟨result.2.scheduler, board result.2.chips⟩ ∧ result.2.scheduler.entered = false ∧
      ended result.1 result.2.report.frames.toNat result.2.scheduler result.2.chips ∧
      result.2.report.passes = driving.report.passes ∧
      result.2.report.desyncs.toNat = driving.report.desyncs.toNat + if result.1 then 0 else 1) host := by
  obtain ⟨scheduler, chips, report⟩ := driving
  have started : Steered loads kinds ⟨{ scheduler with active := thread }, board chips⟩ :=
    ⟨steered.sound.withScheduler rfl steered.sound.free, steered.mode, present⟩
  have total := started.haul_le few
  rw [drive, Scheduler.setActive, if_neg (by simpa using outside), if_neg (Nat.not_le.mpr present), Run.ofExcept_ok, pure_bind]
  exact @enterUntilPoint_meets _ _ _ _ _ _ _ _ _ _ _ _ carries wraps few budget enough budget
    ⟨{ scheduler with active := thread }, chips, report⟩ started outside begins (by simp only; omega) desyncs host

end Carries
end Save
end MultiClock
