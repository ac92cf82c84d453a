import MultiClock.Proofs.DriveEnds

/-! What a drive comes to. A dependent is never disturbed, and moves nobody but itself. The reference is either undisturbed,
or it has less to do than before and one dependent less that may disturb it. -/

namespace MultiClock

variable {loads : Loads} {kinds : List CoprocessorKind}

namespace Machine

variable {before after : Machine} {action : Action}

theorem due_entering (scheduler : Scheduler) (board : Board) : due ⟨scheduler.entering, board⟩ ≤ due ⟨scheduler, board⟩ :=
  due_mono rfl (asleep_entering scheduler board .cpu) fun id _ => Int.le_of_eq (time_entering scheduler id).symm

theorem uncalled_entering (scheduler : Scheduler) (board : Board) : uncalled ⟨scheduler.entering, board⟩ = uncalled ⟨scheduler, board⟩ := by
  have waits : (fun id => behind ⟨scheduler.entering, board⟩ id && id != scheduler.entering.active) =
      fun id => behind ⟨scheduler, board⟩ id && id != scheduler.active := by
    funext id
    rw [behind, time_entering]
    rfl
  unfold uncalled
  rw [waits]

/-- A dependent's turn sets no dependent back. -/
theorem Took.forward (took : Took before after action) (actor : before.scheduler.active ≠ .cpu)
    (id : ThreadId) : before.scheduler.time id ≤ after.scheduler.time id := by
  by_cases own : id = before.scheduler.active
  · subst own
    have moved := took.acted.own actor
    rw [moved]
    exact Int.le_add_of_nonneg_right (Int.natCast_nonneg _)
  · exact Int.le_of_eq (took.acted.others actor id own).symm

/-- A drive of a dependent, from some machine on: nobody else has had a turn. -/
structure Serving (id : ThreadId) (start machine : Machine) : Prop where
  active : machine.scheduler.active = id
  clear : machine.scheduler.desynchronized = false
  cpu : machine.board.cpu = start.board.cpu
  asleep : machine.asleep .cpu = start.asleep .cpu
  forward : ∀ other, other ≠ .cpu → start.scheduler.time other ≤ machine.scheduler.time other

theorem Serving.turn {id : ThreadId} {start : Machine} (serving : Serving id start before) (dependent : id ≠ .cpu)
    (steered : before.Steered loads kinds) (ready : before.Inside) (took : Took before after action) : Serving id start after := by
  have actor : before.scheduler.active ≠ .cpu := serving.active ▸ dependent
  obtain ⟨cpu, asleep, active, keeps⟩ := steered.reference_kept ready took actor
  refine ⟨active.trans serving.active, ?_, cpu.trans serving.cpu, asleep.trans serving.asleep, ?_⟩
  · rw [took.acted.flag]
    cases action with
    | resume target => exact absurd rfl (keeps target)
    | stop => rfl
    | rest | step | pass | passStep | frame => exact serving.clear
  · exact fun other reference => Int.le_trans (serving.forward other reference) (took.forward actor other)

/-- A drive of the reference. It has some work left and is owed some disturbances; or it waits for a dependent, and has less
of both. -/
inductive Waiting (loads : Loads) (work owed : Nat) (machine : Machine) : Prop
  | reference (active : machine.scheduler.active = .cpu) (clear : machine.scheduler.desynchronized = false)
      (left : machine.burden ≤ work) (debt : loads = .own → machine.due ≤ owed) : Waiting loads work owed machine
  | dependent (actor : machine.scheduler.active ≠ .cpu) (disturbed : machine.scheduler.desynchronized = true)
      (left : machine.burden < work) (debt : loads = .own → machine.uncalled < owed ∧ machine.asleep .cpu = 0) :
      Waiting loads work owed machine

theorem Waiting.turn {work owed : Nat} (waiting : Waiting loads work owed before) (few : kinds.length ≤ Cartridge.maxCoprocessors)
    (steered : before.Steered loads kinds) (ready : before.Inside) (took : Took before after action) (stays : action ≠ .stop) :
    Waiting loads work owed after := by
  have flag := took.acted.flag
  have burden := steered.burden_turn few ready took stays
  cases waiting with
  | reference active clear left debt =>
    have lower := burden.1 active
    -- A resumption disturbs the drive, and the dependent that it is for cannot do so a second time.
    by_cases resumes : ∃ target, action = .resume target
    · obtain ⟨target, rfl⟩ := resumes
      have next : after.scheduler.active = target := took.active
      have dependent : target ≠ .cpu := by
        rintro rfl
        exact steered.not_to_reference took rfl
      refine .dependent (next ▸ dependent) ?_ (by omega) ?_
      · rw [flag, Action.flag, Scheduler.synchronizing, steered.mode]
        simp
      · rintro rfl
        refine ⟨Nat.lt_of_lt_of_le (steered.due_resume ready took active) (debt rfl), ?_⟩
        rw [steered.reference_asleep took (.inl rfl)]
        refine steered.sound.reference_running fun idle => ?_
        cases took.acts steered.sound ready with
        | dependent actor => exact actor active
        | reference _ moves =>
          cases moves with
          | ask _ _ _ busy | call _ _ _ _ _ busy => cases busy.symm.trans idle
    · have keeps : ∀ target, action ≠ .resume target := fun target same => resumes ⟨target, same⟩
      refine .reference ((took.keeps_control keeps).trans active) ?_ (by omega) ?_
      · rw [flag]
        cases action with
        | resume target => exact absurd rfl (keeps target)
        | stop => rfl
        | rest | step | pass | passStep | frame => exact clear
      · rintro rfl
        exact Nat.le_trans (steered.due_turn ready took active stays keeps) (debt rfl)
  | dependent actor disturbed left debt =>
    obtain ⟨_, asleep, active, keeps⟩ := steered.reference_kept ready took actor
    have same := burden.2 actor
    refine .dependent (active ▸ actor) ?_ (by omega) fun own => ?_
    · rw [flag]
      cases action with
      | resume target => exact absurd rfl (keeps target)
      | stop => exact absurd rfl stays
      | rest | step | pass | passStep | frame => exact disturbed
    · rw [steered.uncalled_turn ready took actor, asleep]
      exact debt own

/-- The drive ends undisturbed when it is the reference that stops; otherwise with less work left. -/
theorem Waiting.stop {work owed : Nat} (waiting : Waiting loads work owed before) (steered : before.Steered loads kinds)
    (ready : before.Inside) (took : Took before after .stop) :
    (before.scheduler.active = .cpu ∧ after.scheduler.event = .synchronized ∧ after.scheduler.active = .cpu) ∨
      before.scheduler.active ≠ .cpu ∧ after.scheduler.event = .desynchronized ∧ after.burden < work ∧
        (loads = .own → after.due < owed ∧ after.asleep .cpu = 0) := by
  have event := took.event_stop
  cases waiting with
  | reference active clear =>
    rw [clear] at event
    exact .inl ⟨active, event, took.active.trans active⟩
  | dependent actor disturbed left debt =>
    rw [disturbed] at event
    obtain ⟨cpu, asleep, active, _⟩ := steered.reference_kept ready took actor
    refine .inr ⟨actor, event, ?_, fun own => ?_⟩
    · unfold burden at left ⊢
      rwa [cpu, asleep]
    · have late := took.stopped.due_le (active ▸ actor)
      have same := steered.uncalled_turn ready took actor
      obtain ⟨fewer, awake⟩ := debt own
      exact ⟨by omega, asleep.trans awake⟩

end Machine

namespace Save

open Machine

variable [ChipSet σ] [Host ω]

/-- What chips keep while they are driven, and what holds of them between two drives. Not every thread may be driven then. What
is kept may depend on a level, which every drive of a thread raises by the cost of that thread. -/
structure Keeps (permitted : Fault → Prop) (loads : Loads) (kinds : List CoprocessorKind) (board : σ → Board)
    (onFrame : σ → StateM ω σ) (may : Scheduler → ThreadId → Prop) {ι : Type} [AddCommMonoid ι] (cost : ThreadId → ι)
    (can : ι → Prop) (also rest : ι → Scheduler → σ → Prop) : Prop where
  down : ∀ level more, can (level + more) → can level
  calm : ∀ level scheduler chips, can level → Steered loads kinds ⟨scheduler, board chips⟩ → also level scheduler chips →
    ¬ scheduler.Calm → permitted .clockOverflow
  begins : ∀ level scheduler chips id, Steered loads kinds ⟨{ scheduler with active := id }, board chips⟩ →
    scheduler.entered = false → rest level scheduler chips → may scheduler id →
    also (level + cost id) { scheduler with active := id }.entering chips
  turn : ∀ level scheduler chips, Steered loads kinds ⟨scheduler, board chips⟩ → Inside ⟨scheduler, board chips⟩ →
    also level scheduler chips → ∀ action later moved middle notices,
    Sliced board loads kinds scheduler chips action later moved middle notices → action ≠ .stop → also level later moved
  stop : ∀ level scheduler chips, Steered loads kinds ⟨scheduler, board chips⟩ → Inside ⟨scheduler, board chips⟩ →
    also level scheduler chips → ∀ later moved middle notices,
    Sliced board loads kinds scheduler chips .stop later moved middle notices → rest level later moved
  enter : ∀ level scheduler chips, Steered loads kinds ⟨scheduler, board chips⟩ → scheduler.active ≠ .cpu →
    also level scheduler chips → also level scheduler.entering chips
  frame : ∀ level scheduler chips (host : ω), also level scheduler chips → also level scheduler (onFrame chips host).1
  board : ∃ cheats, ∀ chips (host : ω), board (onFrame chips host).1 = ((board chips).completeFrame cheats host).1

abbrev Drive.machine (board : σ → Board) (driving : Drive σ) : Machine := ⟨driving.scheduler, board driving.chips⟩

/-- A save in progress, between two drives. -/
structure Held (loads : Loads) (kinds : List CoprocessorKind) (board : σ → Board) (rest : Scheduler → σ → Prop) (stops : Nat)
    (driving : Drive σ) : Prop where
  steered : Steered loads kinds (driving.machine board)
  outside : driving.scheduler.entered = false
  clear : driving.scheduler.desynchronized = false
  solvent : Solvent stops driving.report.frames.toNat (driving.machine board)
  rest : rest driving.scheduler driving.chips

variable {permitted : Fault → Prop} {board : σ → Board} {onFrame : σ → StateM ω σ} {may : Scheduler → ThreadId → Prop}
  {ι : Type} [AddCommMonoid ι] {cost : ThreadId → ι} {can : ι → Prop} {also rest : ι → Scheduler → σ → Prop} {level : ι}

theorem Keeps.carries_dependent (keeps : Keeps permitted loads kinds board onFrame may cost can also rest)
    (few : kinds.length ≤ Cartridge.maxCoprocessors) (stops : Nat) {id : ThreadId} (dependent : id ≠ .cpu) (start : Machine)
    (room : can level) :
    Carries permitted loads kinds board onFrame id
      (fun frames now moved => Serving id start ⟨now, board moved⟩ ∧ Solvent stops frames ⟨now, board moved⟩ ∧ also level now moved)
      (fun undisturbed frames now moved => undisturbed = true ∧ Serving id start ⟨now, board moved⟩ ∧
        Solvent stops frames ⟨now, board moved⟩ ∧ rest level now moved) := by
  -- In this order: overflows, a slice, the stop, an entry, the host's work at a frame, the counter of frames.
  refine ⟨?_, ?_, ?_, ?_, ?_, ?_, keeps.board⟩
  · exact fun _ now moved steered inside => keeps.calm level now moved room steered inside.2.2
  · intro frames now moved steered ready inside action later last middle notices sliced stays
    obtain ⟨serving, solvent, also⟩ := inside
    refine ⟨serving.turn dependent steered ready sliced.took, ?_, ?_⟩
    · exact Int.le_trans solvent (steered.ledger_turn few ready sliced.took stays frames)
    · exact keeps.turn level now moved steered ready also action later last middle notices sliced stays
  · intro frames now moved steered ready inside later last middle notices sliced
    obtain ⟨serving, solvent, also⟩ := inside
    have actor : now.active ≠ .cpu := by
      have active : now.active = id := serving.active
      rwa [active]
    have served := serving.turn dependent steered ready sliced.took
    have event := sliced.took.event_stop
    rw [serving.clear] at event
    refine ⟨decide_eq_true ⟨event, served.active⟩, served, ?_, ?_⟩
    · exact steered.solvent_stop ready sliced.took (by simpa [actor] using solvent)
    · exact keeps.stop level now moved steered ready also later last middle notices sliced
  · intro frames now moved steered actor inside
    obtain ⟨serving, solvent, also⟩ := inside
    refine ⟨?_, solvent.entering, keeps.enter level now moved steered actor also⟩
    refine ⟨serving.active, serving.clear, serving.cpu, (asleep_entering now _ _).trans serving.asleep, fun other reference => ?_⟩
    rw [time_entering]
    exact serving.forward other reference
  · intro frames now moved host inside
    obtain ⟨serving, solvent, also⟩ := inside
    obtain ⟨cheats, frames⟩ := keeps.board
    refine ⟨?_, ?_, keeps.frame level now moved host also⟩ <;> rw [frames]
    · exact ⟨serving.active, serving.clear, serving.cpu, serving.asleep, serving.forward⟩
    · exact solvent.completeFrame cheats host
  · intro frames now moved inside
    have := inside.2.1.frames_lt
    omega

/-- Nothing disturbs the drive of a dependent. -/
theorem Keeps.drive_dependent (keeps : Keeps permitted loads kinds board onFrame may cost can also rest) (wraps : ChipSet.Wraps board)
    (few : kinds.length ≤ Cartridge.maxCoprocessors) {budget : Nat} (enough : vast < budget) {driving : Drive σ} {id : ThreadId}
    {stops : Nat} (held : Held loads kinds board (rest level) stops driving) (room : can (level + cost id)) (dependent : id ≠ .cpu)
    (present : id.index < driving.scheduler.threads.size) (allowed : may driving.scheduler id)
    (desyncs : driving.report.desyncs.toNat + 1 < 2 ^ 32) {host : ω} :
    (drive onFrame budget id driving).Meets permitted (fun result _ =>
      result.1 = true ∧ Held loads kinds board (rest (level + cost id)) stops result.2 ∧
      Serving id (driving.machine board) (result.2.machine board) ∧
      result.2.report.passes = driving.report.passes ∧ result.2.report.desyncs.toNat = driving.report.desyncs.toNat) host := by
  obtain ⟨scheduler, chips, report⟩ := driving
  obtain ⟨steered, outside, clear, solvent, rested⟩ := held
  have started : Steered loads kinds ⟨{ scheduler with active := id }, board chips⟩ :=
    ⟨steered.sound.withScheduler rfl steered.sound.free, steered.mode, present⟩
  have begins : Serving id ⟨scheduler, board chips⟩ ⟨{ scheduler with active := id }.entering, board chips⟩ := by
    refine ⟨rfl, clear, rfl, asleep_entering { scheduler with active := id } _ _, fun other _ => ?_⟩
    exact Int.le_of_eq (time_entering { scheduler with active := id } other).symm
  have opens := keeps.begins level scheduler chips id started outside rested allowed
  have opened : Solvent stops report.frames.toNat ⟨{ scheduler with active := id }, board chips⟩ := solvent
  have carries := keeps.carries_dependent few stops dependent ⟨scheduler, board chips⟩ room
  refine (carries.drive_meets wraps few enough steered outside present ⟨begins, opened.entering, opens⟩ desyncs).mono ?_
  rintro ⟨undisturbed, driven⟩ heard ⟨steered, outside, ⟨rfl, served, solvent, rested⟩, passes, desyncs⟩
  exact ⟨rfl, ⟨steered, outside, served.clear, solvent, rested⟩, served, passes, desyncs⟩

theorem Keeps.carries_reference (keeps : Keeps permitted loads kinds board onFrame may cost can also rest)
    (few : kinds.length ≤ Cartridge.maxCoprocessors) (stops work owed : Nat) (room : can level) :
    Carries permitted loads kinds board onFrame .cpu
      (fun frames now moved => Waiting loads work owed ⟨now, board moved⟩ ∧ Solvent (stops + 1) frames ⟨now, board moved⟩ ∧
        also level now moved)
      (fun undisturbed frames now moved => now.desynchronized = false ∧ rest level now moved ∧
        (undisturbed = true ∧ Solvent stops frames ⟨now, board moved⟩ ∨
          undisturbed = false ∧ Solvent (stops + 1) frames ⟨now, board moved⟩ ∧ burden ⟨now, board moved⟩ < work ∧
          (loads = .own → due ⟨now, board moved⟩ < owed ∧ asleep ⟨now, board moved⟩ .cpu = 0))) := by
  -- In the order of `carries_dependent`. Only the stop differs: it may be that of the dependent that was resumed.
  refine ⟨?_, ?_, ?_, ?_, ?_, ?_, keeps.board⟩
  · exact fun _ now moved steered inside => keeps.calm level now moved room steered inside.2.2
  · intro frames now moved steered ready inside action later last middle notices sliced stays
    obtain ⟨waiting, solvent, also⟩ := inside
    refine ⟨waiting.turn few steered ready sliced.took stays, ?_, ?_⟩
    · exact Int.le_trans solvent (steered.ledger_turn few ready sliced.took stays frames)
    · exact keeps.turn level now moved steered ready also action later last middle notices sliced stays
  · intro frames now moved steered ready inside later last middle notices sliced
    obtain ⟨waiting, solvent, also⟩ := inside
    refine ⟨sliced.took.stopped.clear, keeps.stop level now moved steered ready also later last middle notices sliced, ?_⟩
    rcases waiting.stop steered ready sliced.took with ⟨reference, event, active⟩ | ⟨actor, event, left, debt⟩
    · refine .inl ⟨decide_eq_true ⟨event, active⟩, steered.solvent_stop ready sliced.took ?_⟩
      rwa [if_pos reference]
    · refine .inr ⟨decide_eq_false fun synchronized => ?_, steered.solvent_stop ready sliced.took ?_, left, debt⟩
      · rw [event] at synchronized
        cases synchronized.1
      · rwa [if_neg actor]
  · intro frames now moved steered actor inside
    obtain ⟨waiting, solvent, also⟩ := inside
    refine ⟨?_, solvent.entering, keeps.enter level now moved steered actor also⟩
    cases waiting with
    | reference active => exact absurd active actor
    | dependent _ disturbed left debt =>
      refine .dependent actor disturbed ?_ fun own => ⟨?_, ?_⟩
      · rwa [burden_entering]
      · rw [uncalled_entering]
        exact (debt own).1
      · rw [asleep_entering]
        exact (debt own).2
  · intro frames now moved host inside
    obtain ⟨waiting, solvent, also⟩ := inside
    obtain ⟨cheats, frames⟩ := keeps.board
    refine ⟨?_, ?_, keeps.frame level now moved host also⟩ <;> rw [frames]
    · cases waiting with
      | reference active clear left debt => exact .reference active clear left debt
      | dependent actor disturbed left debt => exact .dependent actor disturbed left debt
    · exact solvent.completeFrame cheats host
  · intro frames now moved inside
    have := inside.2.1.frames_lt
    omega

/-- The drive of the reference may be disturbed, but every time by one dependent less. -/
theorem Keeps.drive_reference (keeps : Keeps permitted loads kinds board onFrame may cost can also rest) (wraps : ChipSet.Wraps board)
    (few : kinds.length ≤ Cartridge.maxCoprocessors) {budget : Nat} (enough : vast < budget) {driving : Drive σ}
    {stops : Nat} (held : Held loads kinds board (rest level) (stops + 1) driving) (room : can (level + cost .cpu))
    (allowed : may driving.scheduler .cpu) (desyncs : driving.report.desyncs.toNat + 1 < 2 ^ 32) {host : ω} :
    (drive onFrame budget .cpu driving).Meets permitted (fun result _ =>
      result.2.report.passes = driving.report.passes ∧
      ((result.1 = true ∧ Held loads kinds board (rest (level + cost .cpu)) stops result.2 ∧
          result.2.report.desyncs.toNat = driving.report.desyncs.toNat) ∨
        result.1 = false ∧ Held loads kinds board (rest (level + cost .cpu)) (stops + 1) result.2 ∧
        result.2.report.desyncs.toNat = driving.report.desyncs.toNat + 1 ∧
        (result.2.machine board).burden < (driving.machine board).burden ∧
        (loads = .own → (result.2.machine board).due < (driving.machine board).due ∧ (result.2.machine board).asleep .cpu = 0))) host := by
  obtain ⟨scheduler, chips, report⟩ := driving
  obtain ⟨steered, outside, clear, solvent, rested⟩ := held
  have present : ThreadId.cpu.index < scheduler.threads.size := by
    have size := Scheduler.size_of_wiring steered.sound.wired
    simp only [ThreadId.index] at size ⊢
    omega
  have started : Steered loads kinds ⟨{ scheduler with active := .cpu }, board chips⟩ :=
    ⟨steered.sound.withScheduler rfl steered.sound.free, steered.mode, present⟩
  have begins : Waiting loads (burden ⟨scheduler, board chips⟩) (due ⟨scheduler, board chips⟩)
      ⟨{ scheduler with active := .cpu }.entering, board chips⟩ :=
    .reference rfl clear (Nat.le_of_eq (burden_entering { scheduler with active := .cpu } _)) fun _ =>
      due_entering { scheduler with active := .cpu } _
  have opens := keeps.begins level scheduler chips .cpu started outside rested allowed
  have opened : Solvent (stops + 1) report.frames.toNat ⟨{ scheduler with active := .cpu }, board chips⟩ := solvent
  have carries := keeps.carries_reference few stops (burden ⟨scheduler, board chips⟩) (due ⟨scheduler, board chips⟩) room
  refine (carries.drive_meets wraps few enough steered outside present ⟨begins, opened.entering, opens⟩ desyncs).mono ?_
  rintro ⟨undisturbed, driven⟩ heard ⟨steered, outside, ⟨clear, rested, ends⟩, passes, desyncs⟩
  refine ⟨passes, ?_⟩
  rcases ends with ⟨rfl, solvent⟩ | ⟨rfl, solvent, left, debt⟩
  · exact .inl ⟨rfl, ⟨steered, outside, clear, solvent, rested⟩, desyncs⟩
  · exact .inr ⟨rfl, ⟨steered, outside, clear, solvent, rested⟩, desyncs, left, debt⟩

end Save
end MultiClock
