import MultiClock.Proofs.SaveEnds

/-! The surplus of the display processor. Every drive gives it one more line at its point, whether it is behind or not, and
a drive of the reference takes back no more than one instruction. So what the drives of a save add up to stays. -/

namespace MultiClock

variable {kinds : List CoprocessorKind} {level : Int}

namespace Cpu

/-- The clock units that the reference still steps before its next point. -/
def stint (cpu : Cpu) : Nat :=
  match cpu.continuation with
  | .execute _ _ cycles => 8 * max cycles.toNat 1
  | .idle | .access _ _ _ | .catchup _ => 0

theorem stint_of_idle {cpu : Cpu} (idle : cpu.continuation = .idle) : cpu.stint = 0 := by
  rw [stint, idle]

/-- What the reference steps is taken off its stint, which begins anew only at its point. -/
theorem stint_of_moves {scheduler : Scheduler} {before after : Cpu} {action : Action} (moves : before.Moves scheduler after action) :
    action = .pass ∧ after.stint ≤ 128 ∨ action ≠ .pass ∧ after.stint + action.units ≤ before.stint := by
  cases moves with
  | stop _ same => exact .inr ⟨by simp, Nat.le_of_eq (congrArg stint same)⟩
  | pass _ opcode operand fetched =>
    have short := cycles_le opcode operand
    refine .inl ⟨rfl, ?_⟩
    simp only [stint, fetched]
    omega
  | step opcode operand cycles executing spent =>
    refine .inr ⟨by simp, ?_⟩
    by_cases several : 1 < cycles
    · obtain ⟨more, fewer⟩ := counted_down several
      rw [if_pos several] at spent
      simp only [stint, executing, spent, fewer, Action.units, cycleUnits, UInt32.reduceToNat]
      omega
    · rw [if_neg several] at spent
      simp only [stint, executing, spent, Action.units, cycleUnits, UInt32.reduceToNat]
      omega
  | complete _ _ _ accessing completed =>
    refine .inr ⟨by simp, ?_⟩
    rcases completed with ⟨idle, _⟩ | ⟨due, _⟩
    · simp [stint, accessing, idle, Action.units]
    · simp [stint, accessing, due, Action.units]
  | ask _ _ _ accessing _ _ asked => exact .inr ⟨by simp, by simp [stint, accessing, asked, Action.units]⟩
  | call _ _ _ _ _ catching _ _ _ called => exact .inr ⟨by simp, by simp [stint, catching, called, Action.units]⟩
  | caughtUp _ catching idle => exact .inr ⟨by simp, by simp [stint, catching, idle, Action.units]⟩

/-- The reference hands over control only when it has stepped everything. -/
theorem stint_of_resume {scheduler : Scheduler} {before after : Cpu} {target : ThreadId}
    (moves : before.Moves scheduler after (.resume target)) : after.stint = 0 := by
  cases moves with
  | ask _ _ _ _ _ _ asked => rw [stint, asked]
  | call _ _ _ _ _ _ _ _ _ called => rw [stint, called]

end Cpu

namespace Machine

variable {before after : Machine} {action : Action}

/-- What the reference may still step in this drive: one instruction if it is at its point, and else the rest of one. -/
def stint (machine : Machine) : Nat := machine.board.cpu.stint + 128 * machine.asleep .cpu

/-- The surplus between two drives. -/
structure Resting (level : Int) (machine : Machine) : Prop where
  parked : machine.scheduler.state? .ppu = some .parked
  surplus : level ≤ machine.scheduler.time .ppu
  spent : machine.board.cpu.stint = 0

/-- The surplus in the middle of a drive. The line that is drawn counts as a whole, also before it is begun, and so does the
instruction that the reference executes. -/
inductive Pushed (level : Int) (machine : Machine) : Prop
  | starts (active : machine.scheduler.active = .ppu) (state : machine.scheduler.state? .ppu = some .released)
      (spent : machine.board.cpu.stint = 0) (surplus : level ≤ machine.scheduler.time .ppu + (1364 * second : Nat)) :
      Pushed level machine
  | draws (active : machine.scheduler.active = .ppu) (state : machine.scheduler.state? .ppu = some .running)
      (spent : machine.board.cpu.stint = 0)
      (surplus : level ≤ machine.scheduler.time .ppu + (machine.board.workload .ppu).units * second) : Pushed level machine
  | executes (active : machine.scheduler.active = .cpu) (state : machine.scheduler.state? .ppu = some .parked)
      (surplus : level + machine.stint * second ≤ machine.scheduler.time .ppu) : Pushed level machine
  | waits (reference : machine.scheduler.active ≠ .cpu) (picture : machine.scheduler.active ≠ .ppu)
      (state : machine.scheduler.state? .ppu = some .parked) (spent : machine.board.cpu.stint = 0)
      (surplus : level ≤ machine.scheduler.time .ppu) : Pushed level machine

/-- A turn of the display processor never takes back anything of its line, and at its point it begins a whole one. -/
theorem Took.draws (sound : before.Sound .own kinds) (ready : before.Inside) (took : Took before after action)
    (active : before.scheduler.active = .ppu) :
    before.scheduler.time .ppu + (before.board.workload .ppu).units * second ≤
        after.scheduler.time .ppu + (after.board.workload .ppu).units * second ∧
      (action.state? = some .running → before.scheduler.time .ppu + (1364 * second : Nat) ≤
        after.scheduler.time .ppu + (after.board.workload .ppu).units * second) := by
  have own := took.acted.own (by simp [active])
  rw [Scheduler.reference_rate sound.wired, active] at own
  rw [own]
  cases took.acts sound ready with
  | reference reference => simp [active] at reference
  | dependent _ advances =>
    rw [active] at advances
    obtain begins | continues := advances.begins_or_continues
    · have whole : 1364 ≤ action.units + (after.board.workload .ppu).units := begins.whole
      rw [begins.idle, show Workload.idle.units = 0 from rfl]
      push_cast
      exact ⟨by omega, fun _ => by omega⟩
    · have quiet : action.state? ≠ some .running := by
        rcases continues.closer with rfl | ⟨silent, _⟩
        · simp [Action.state?]
        · simp [silent]
      refine ⟨?_, fun running => absurd running quiet⟩
      rw [← continues.spent]
      push_cast
      linarith

/-- A dependent that was given control at its point goes on there, unless the drive is over. -/
theorem Steered.begins (steered : before.Steered .own kinds) (ready : before.Inside) (took : Took before after action)
    (actor : before.scheduler.active ≠ .cpu) (state : before.scheduler.state? before.scheduler.active = some .released)
    (stays : action ≠ .stop) : action.state? = some .running := by
  have idle : before.board.workload before.scheduler.active = .idle :=
    (steered.sound.suspended rfl _ .released state (by decide)).workload
  obtain ⟨_, _, _, keeps⟩ := steered.reference_kept ready took actor
  cases took.acts steered.sound ready with
  | reference reference => exact absurd reference actor
  | dependent _ advances =>
    rw [idle] at advances
    cases advances with
    | rest shorter | step shorter | frame shorter => exact absurd shorter (Nat.not_lt_zero _)
    | resume => exact absurd rfl (keeps .cpu)
    | stop => exact absurd rfl stays
    | pass | passStep => rfl

/-- What the reference steps is taken off what it may still step in this drive. -/
theorem Steered.stint_turn (steered : before.Steered .own kinds) (took : Took before after action)
    (active : before.scheduler.active = .cpu) (moves : before.board.cpu.Moves before.scheduler after.board.cpu action)
    (stays : action ≠ .stop) : after.stint + action.units ≤ before.stint := by
  unfold Machine.stint
  rcases Cpu.stint_of_moves moves with ⟨rfl, short⟩ | ⟨silent, spent⟩
  · obtain ⟨asleep, awake⟩ := steered.reference_passes took active rfl
    rw [asleep, awake]
    simp only [Action.units]
    omega
  · have quiet : action.state? = none := by
      cases moves with
      | pass => exact absurd rfl silent
      | stop => exact absurd rfl stays
      | step | complete | ask | call | caughtUp => rfl
    rw [steered.reference_asleep took (.inl quiet)]
    omega

/-- The reference leaves enough for the rest of its stint, to whomever it hands control. -/
theorem Steered.reference_pushes (steered : before.Steered .own kinds) (took : Took before after action)
    (active : before.scheduler.active = .cpu) (moves : before.board.cpu.Moves before.scheduler after.board.cpu action)
    (state : before.scheduler.state? .ppu = some .parked) (surplus : level + before.stint * second ≤ before.scheduler.time .ppu)
    (stays : action ≠ .stop) : after.Pushed level := by
  have covered : level + after.stint * second ≤ after.scheduler.time .ppu := by
    have time := took.acted.dependents active .ppu (by simp)
    rw [Scheduler.picture_rate steered.sound.wired] at time
    have scaled := Nat.mul_le_mul_right second (steered.stint_turn took active moves stays)
    rw [Nat.add_mul] at scaled
    zify at scaled
    rw [time]
    push_cast at surplus scaled ⊢
    linarith
  by_cases resumes : ∃ target, action = .resume target
  · obtain ⟨target, rfl⟩ := resumes
    have next : after.scheduler.active = target := took.active
    have states := took.acted.states .ppu
    rw [state] at states
    have spent := Cpu.stint_of_resume moves
    have positive : (0 : Int) ≤ after.stint * second := by positivity
    by_cases picture : target = .ppu
    · subst picture
      exact .starts next states spent (by omega)
    · refine .waits ?_ (next ▸ picture) (states.trans (if_neg picture)) spent (by omega)
      rintro reference
      exact steered.not_to_reference took (congrArg Action.resume (next.symm.trans reference))
  · have keeps : ∀ target, action ≠ .resume target := fun target same => resumes ⟨target, same⟩
    have kept := took.state_kept (keeps .ppu) (.inr (by simp [active]))
    exact .executes ((took.keeps_control keeps).trans active) (kept.trans state) covered

theorem Pushed.turn (pushed : before.Pushed level) (steered : before.Steered .own kinds) (ready : before.Inside)
    (took : Took before after action) (stays : action ≠ .stop) : after.Pushed level := by
  cases pushed with
  | starts active state spent surplus =>
    have actor : before.scheduler.active ≠ .cpu := by simp [active]
    have passes := steered.begins ready took actor (active ▸ state) stays
    obtain ⟨cpu, _, next, _⟩ := steered.reference_kept ready took actor
    obtain ⟨_, begins⟩ := took.draws steered.sound ready active
    exact .draws (next.trans active) (active ▸ took.running passes) (cpu ▸ spent) (Int.le_trans surplus (begins passes))
  | draws active state spent surplus =>
    have runs := took.runs_on (active ▸ state) stays
    obtain ⟨cpu, _, next, _⟩ := steered.reference_kept ready took (by simp [active])
    obtain ⟨kept, _⟩ := took.draws steered.sound ready active
    exact .draws (next.trans active) (active ▸ runs) (cpu ▸ spent) (Int.le_trans surplus kept)
  | executes active state surplus =>
    cases took.acts steered.sound ready with
    | dependent actor => exact absurd active actor
    | reference _ moves => exact steered.reference_pushes took active moves state surplus stays
  | waits reference picture state spent surplus =>
    obtain ⟨cpu, _, next, keeps⟩ := steered.reference_kept ready took reference
    have time := took.acted.others reference .ppu (Ne.symm picture)
    have kept := took.state_kept (keeps .ppu) (.inr (Ne.symm picture))
    exact .waits (next ▸ reference) (next ▸ picture) (kept.trans state) (cpu ▸ spent) (time ▸ surplus)

theorem Pushed.stop (pushed : before.Pushed level) (steered : before.Steered .own kinds) (ready : before.Inside)
    (took : Took before after .stop) : after.Resting level := by
  have states := took.acted.states .ppu
  -- Nobody stops who was permitted to go on, or who is in the middle of a unit of work.
  cases pushed with
  | starts active state =>
    obtain ⟨thread, found, stays⟩ := took.stops rfl
    rw [active] at found
    have released := (Scheduler.state?_eq found).symm.trans state
    exact absurd (.inl (Option.some.inj released)) stays
  | draws active state spent surplus =>
    obtain ⟨cpu, _, _⟩ := steered.reference_kept ready took (by simp [active])
    obtain ⟨kept, _⟩ := took.draws steered.sound ready active
    have rests : after.board.workload .ppu = .idle := by
      cases took.acts steered.sound ready with
      | reference reference => simp [active] at reference
      | dependent _ advances =>
        rw [active] at advances
        cases advances with
        | stop _ idle => exact idle
    refine ⟨?_, ?_, cpu ▸ spent⟩
    · rw [states, active]
      rfl
    · rw [rests] at kept
      have surplus := Int.le_trans surplus kept
      simpa [Workload.idle] using surplus
  | executes active state surplus =>
    have time := took.acted.dependents active .ppu (by simp)
    cases took.acts steered.sound ready with
    | dependent actor => exact absurd active actor
    | reference _ moves =>
      cases moves with
      | stop idle same =>
        have positive : (0 : Int) ≤ before.stint * second := by positivity
        refine ⟨?_, ?_, ?_⟩
        · rw [states, active]
          exact state
        · simp only [Action.units, Nat.zero_mul, Nat.cast_zero] at time
          omega
        · rw [same]
          exact Cpu.stint_of_idle idle
  | waits reference picture state spent surplus =>
    obtain ⟨cpu, _, _⟩ := steered.reference_kept ready took reference
    have time := took.acted.others reference .ppu (Ne.symm picture)
    refine ⟨?_, time ▸ surplus, cpu ▸ spent⟩
    rw [states]
    exact (if_neg picture).trans state

/-- By how much a drive of a thread raises the surplus at least. -/
def push : ThreadId → Int
  | .ppu => (1364 * second : Nat)
  | .cpu => -(128 * second : Nat)
  | .smp | .coprocessor _ => 0

theorem Resting.begins {scheduler : Scheduler} {board : Board} (resting : Resting level ⟨scheduler, board⟩) (id : ThreadId) :
    Pushed (level + push id) ⟨{ scheduler with active := id }.entering, board⟩ := by
  have parked : ({ scheduler with active := id } : Scheduler).state? .ppu = some .parked := resting.parked
  have surplus : level ≤ scheduler.time .ppu := resting.surplus
  have spent : board.cpu.stint = 0 := resting.spent
  have states : { scheduler with active := id }.entering.state? .ppu = _ :=
    Scheduler.state?_transferTo { scheduler with active := id } id .ppu
  have time : { scheduler with active := id }.entering.time .ppu = scheduler.time .ppu :=
    time_entering { scheduler with active := id } .ppu
  have active : { scheduler with active := id }.entering.active = id := rfl
  have apart : ∀ other, id ≠ other → { scheduler with active := id }.entering.active ≠ other := fun _ different => different
  rw [parked] at states
  cases id with
  | ppu =>
    apply Pushed.starts active states spent
    simp only [time, push]
    omega
  | cpu =>
    apply Pushed.executes active states
    have short : stint ⟨{ scheduler with active := .cpu }.entering, board⟩ ≤ 128 := by
      have once := asleep_le ⟨{ scheduler with active := .cpu }.entering, board⟩ .cpu
      simp only [stint, spent]
      omega
    have scaled := Nat.mul_le_mul_right second short
    zify at scaled
    simp only [time, push]
    push_cast at scaled ⊢
    linarith
  | smp | coprocessor =>
    apply Pushed.waits (apart _ (by simp)) (apart _ (by simp)) states spent
    simpa only [time, push, Int.add_zero] using surplus

theorem Pushed.entering {scheduler : Scheduler} {board : Board} (pushed : Pushed level ⟨scheduler, board⟩)
    (dependent : scheduler.active ≠ .cpu) : Pushed level ⟨scheduler.entering, board⟩ := by
  have states : scheduler.entering.state? .ppu = _ := Scheduler.state?_transferTo scheduler scheduler.active .ppu
  have time := time_entering scheduler .ppu
  cases pushed with
  | starts active state spent surplus =>
    refine .starts active ?_ spent (time ▸ surplus)
    rw [states, if_pos active]
    exact congrArg _ state
  | draws active state spent surplus =>
    refine .draws active ?_ spent (time ▸ surplus)
    rw [states, if_pos active]
    exact congrArg _ state
  | executes active => exact absurd active dependent
  | waits reference picture state spent surplus =>
    refine .waits reference picture ?_ spent (time ▸ surplus)
    rw [states, if_neg picture]
    exact state

theorem Pushed.completeFrame [Host ω] {scheduler : Scheduler} {board : Board} (pushed : Pushed level ⟨scheduler, board⟩)
    (cheats : List Cheat) (host : ω) : Pushed level ⟨scheduler, (board.completeFrame cheats host).1⟩ := by
  cases pushed with
  | starts active state spent surplus => exact .starts active state spent surplus
  | draws active state spent surplus => exact .draws active state spent surplus
  | executes active state surplus => exact .executes active state surplus
  | waits reference picture state spent surplus => exact .waits reference picture state spent surplus

end Machine

namespace Save

open Machine

variable [ChipSet σ] [Host ω] {board : σ → Board} {onFrame : σ → StateM ω σ}

/-- A save keeps the surplus of the display processor. -/
theorem keeps_surplus {permitted : Fault → Prop} (overflow : permitted .clockOverflow)
    (frames : ∃ cheats, ∀ chips (host : ω), board (onFrame chips host).1 = ((board chips).completeFrame cheats host).1) :
    Keeps permitted .own kinds board onFrame (fun _ _ => True) push (fun _ => True)
      (fun level scheduler chips => Pushed level ⟨scheduler, board chips⟩)
      (fun level scheduler chips => Resting level ⟨scheduler, board chips⟩) where
  down _ _ _ := trivial
  calm _ _ _ _ _ _ _ := overflow
  begins _ _ _ id _ _ resting _ := resting.begins id
  turn _ _ _ steered ready pushed _ _ _ _ _ sliced stays := pushed.turn steered ready sliced.took stays
  stop _ _ _ steered ready pushed _ _ _ _ sliced := pushed.stop steered ready sliced.took
  enter _ _ _ _ dependent pushed := pushed.entering dependent
  frame _ _ chips host pushed := by
    obtain ⟨cheats, same⟩ := frames
    rw [same]
    exact pushed.completeFrame cheats host
  board := frames

end Save
end MultiClock
