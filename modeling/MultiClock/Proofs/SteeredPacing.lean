import MultiClock.Proofs.NormalExecution
import MultiClock.Proofs.SaveEnds

/-! The clocks stay within their bounds while chips are steered to their points, too. Forced hand-overs are switched off
then, so the bounds rest on another fact: a dependent starts a unit of work only when it was given control. The fast method
does so only while it is behind. The strict method does not look, and every drive may move a dependent further ahead. -/

namespace MultiClock

variable {kinds : List CoprocessorKind} {slack : Nat}

theorem Cpu.accessed_ne_picture {cpu : Cpu} {opcode : Opcode} {operand : UInt8} {other : ThreadId}
    (accessed : cpu.accessed opcode operand = some other) : other ≠ .ppu := by
  rintro rfl
  cases opcode with
  | apuWrite | apuRead | add | store | shift | wait => cases accessed
  | copWrite | copRead =>
    simp only [Cpu.accessed, Option.map_eq_some_iff] at accessed
    obtain ⟨index, _, impossible⟩ := accessed
    cases impossible

/-- Nobody is parked once control is transferred to it. -/
theorem Thread.State.map_release_ne_parked (state : Option Thread.State) : state.map release ≠ some .parked := by
  cases state with
  | none => simp
  | some state => cases state <;> simp [release]

namespace Scheduler

/-- The strict method drives the reference only while it is in the middle of an instruction, or when everybody has caught up. -/
def Drivable (scheduler : Scheduler) (id : ThreadId) : Prop :=
  id = .cpu → scheduler.state? .cpu = some .running ∨ ∀ other, other ≠ .cpu → 0 ≤ scheduler.time other

/-- The fast method also leaves a dependent alone that is settled already. -/
structure Eligible (scheduler : Scheduler) (id : ThreadId) : Prop where
  drivable : scheduler.Drivable id
  dependent : id ≠ .cpu → ¬ scheduler.Rests id

/-- A parked dependent that may be driven is behind. -/
theorem Eligible.behind {scheduler : Scheduler} {id : ThreadId} (eligible : scheduler.Eligible id)
    (dependent : id ≠ .cpu) (parked : scheduler.state? id = some .parked) : scheduler.time id < 0 := by
  obtain ⟨thread, found, state⟩ := Option.map_eq_some_iff.mp parked
  have awake := eligible.dependent dependent
  rw [time_eq found]
  by_contra level
  refine awake ⟨thread, found, ?_⟩
  have ahead := (Clock.ahead_iff thread.clock).mpr (Int.not_lt.mp level)
  simp [Thread.settled, Thread.parked, state, ahead]

end Scheduler

namespace Machine

variable {before after : Machine} {action : Action}

/-- A parked dependent is given control only while it is not too far ahead to start its next unit of work. -/
def Prompt (slack : Nat) (kinds : List CoprocessorKind) (machine : Machine) : Prop :=
  ∀ id, id ≠ .cpu → machine.scheduler.state? id = some .released → machine.scheduler.time id ≤ slack + (paceOf kinds id).patience

/-- A thread stands in front of its point only because it was there before, or because it was given control. -/
theorem Took.released (took : Took before after action) {id : ThreadId} (released : after.scheduler.state? id = some .released) :
    before.scheduler.state? id = some .released ∧ (id = before.scheduler.active → action.state? = none) ∨ action = .resume id := by
  rw [took.acted.states] at released
  cases action with
  | rest | step | frame => exact .inl ⟨released, fun _ => rfl⟩
  | stop | pass | passStep =>
    simp only [Action.suspends] at released
    split at released
    · cases released
    next other => exact .inl ⟨released, fun same => absurd same.symm other⟩
  | resume target =>
    simp only [Action.suspends] at released
    split at released
    next same => exact .inr (congrArg Action.resume same)
    next => exact .inl ⟨released, fun _ => rfl⟩

theorem Prompt.turn (prompt : before.Prompt slack kinds) (sound : before.Sound .own kinds) (ready : before.Inside)
    (took : Took before after action) : after.Prompt slack kinds := by
  intro id dependent released
  -- A permission is older than this turn, or it was given in this turn to a dependent that is behind.
  have came := took.released released
  cases took.acts sound ready with
  | reference active moves =>
    have early : before.scheduler.time id ≤ slack + (paceOf kinds id).patience := by
      rcases came with ⟨released, _⟩ | resumed
      · exact prompt id dependent released
      · have patience := paceOf_patience kinds id
        cases moves with
        | ask _ _ _ _ _ behind | call _ _ _ _ _ _ _ _ behind =>
          cases resumed
          omega
        | stop | pass | step | complete | caughtUp => cases resumed
    have back : (0 : Int) ≤ (action.units * before.scheduler.rate id : Nat) := Int.natCast_nonneg _
    rw [took.acted.dependents active id dependent]
    omega
  | dependent actor advances =>
    rcases came with ⟨released, silent⟩ | resumed
    · have early := prompt id dependent released
      by_cases own : id = before.scheduler.active
      · have still : action.units = 0 := by
          cases advances with
          | rest | frame | resume => rfl
          | stop | pass | passStep => cases silent own
          | step shorter =>
            have rested := sound.suspended rfl id .released released (by decide)
            rw [← own, rested.workload] at shorter
            exact absurd shorter (Nat.not_lt_zero _)
        rw [own, took.acted.own actor, still, Nat.zero_mul, ← own]
        simpa using early
      · rw [took.acted.others actor id own]
        exact early
    · cases advances with
      | resume =>
        cases resumed
        exact absurd rfl dependent
      | rest | step | stop | pass | passStep | frame => cases resumed

theorem Prompt.relax {machine : Machine} (prompt : machine.Prompt slack kinds) (more : Nat) : machine.Prompt (slack + more) kinds := by
  intro id dependent released
  have early := prompt id dependent released
  push_cast
  omega

theorem Prompt.transferTo {scheduler : Scheduler} {board : Board} (prompt : Prompt slack kinds ⟨scheduler, board⟩) {target : ThreadId}
    (early : target ≠ .cpu → scheduler.state? target = some .parked →
      scheduler.time target ≤ slack + (paceOf kinds target).patience) :
    Prompt slack kinds ⟨scheduler.transferTo target, board⟩ := by
  intro id dependent released
  have before := scheduler.state?_transferTo target id
  rw [show (scheduler.transferTo target).state? id = some .released from released] at before
  rw [show (scheduler.transferTo target).time id = scheduler.time id from scheduler.time_transferTo target id]
  split at before
  next same =>
    subst same
    cases state : scheduler.state? target with
    | none =>
      rw [state] at before
      cases before
    | some resting =>
      rw [state] at before
      cases resting with
      | parked => exact early dependent state
      | released => exact prompt target dependent state
      | running => cases before
  next => exact prompt id dependent before.symm

/-- Whoever has control is not parked. Only the reference may be, in front of an entry. -/
def Awake (machine : Machine) : Prop :=
  machine.scheduler.active ≠ .cpu → machine.scheduler.state? machine.scheduler.active ≠ some .parked

theorem Awake.turn (awake : before.Awake) (took : Took before after action) (stays : action ≠ .stop) : after.Awake := by
  intro dependent
  rw [took.active] at dependent ⊢
  rw [took.acted.states]
  cases action with
  | stop => exact absurd rfl stays
  | rest | step | frame => exact awake dependent
  | pass | passStep => simp [Action.suspends, Action.next]
  | resume target =>
    simp only [Action.suspends, Action.next, if_true]
    exact Thread.State.map_release_ne_parked _

/-- How control was given to whoever has it. -/
structure Handed (slack : Nat) (kinds : List CoprocessorKind) (machine : Machine) : Prop where
  prompt : machine.Prompt slack kinds
  awake : machine.Awake

/-- An entry gives control to the thread that had it before. -/
theorem Handed.entering {scheduler : Scheduler} {board : Board} (handed : Handed slack kinds ⟨scheduler, board⟩) :
    Handed slack kinds ⟨scheduler.entering, board⟩ where
  prompt := handed.prompt.transferTo fun dependent parked => absurd parked (handed.awake dependent)
  awake dependent := by
    have states : scheduler.entering.state? scheduler.active = _ := scheduler.state?_transferTo scheduler.active scheduler.active
    rw [if_pos rfl] at states
    exact states ▸ Thread.State.map_release_ne_parked _

/-- A steered dependent that goes on at its point is not too far ahead. -/
theorem Steered.starts_early (steered : before.Steered .own kinds) (prompt : before.Prompt slack kinds) (took : Took before after action)
    (dependent : before.scheduler.active ≠ .cpu) (passes : action.state? = some .running) :
    before.scheduler.time before.scheduler.active ≤ slack + (paceOf kinds before.scheduler.active).patience := by
  obtain released | ⟨_, behind⟩ := steered.passes took passes
  · exact prompt _ dependent released
  · have patience := paceOf_patience kinds before.scheduler.active
    omega

theorem Steered.pacing_turn (few : kinds.length ≤ Cartridge.maxCoprocessors) (steered : before.Steered .own kinds)
    (ready : before.Inside) (prompt : before.Prompt slack kinds) (pacing : before.Pacing slack .own kinds)
    (took : Took before after action) (later : after.Sound .own kinds) : after.Pacing slack .own kinds :=
  pacing.turn few steered.sound later ready took fun dependent _ => steered.starts_early prompt took dependent

theorem Pacing.relax {machine : Machine} (pacing : machine.Pacing slack .own kinds) (more : Nat) :
    machine.Pacing (slack + more) .own kinds := by
  refine ⟨fun id dependent present => ?_, fun id dependent present early => ?_, fun id dependent present => ?_⟩
  · have bound := pacing.behind id dependent present
    push_cast
    linarith
  · have bound := pacing.caughtUp id dependent present early
    push_cast
    linarith
  · have bound := pacing.ahead id dependent present
    push_cast at bound ⊢
    linarith

/-- Between two drives. Whoever had control is not behind, or else it is the reference that lets it catch up. -/
structure Poised (slack : Nat) (kinds : List CoprocessorKind) (machine : Machine) : Prop where
  pacing : machine.Pacing slack .own kinds
  prompt : machine.Prompt slack kinds
  level : machine.scheduler.active = .cpu ∨ 0 ≤ machine.scheduler.time machine.scheduler.active ∨ machine.Finishing

/-- A drive begins within the bounds. Who was late before is level now, or still late. -/
theorem Poised.pacing_entering {scheduler : Scheduler} {board : Board} (poised : Poised slack kinds ⟨scheduler, board⟩) {id : ThreadId}
    (drivable : scheduler.Drivable id) : Pacing slack .own kinds ⟨{ scheduler with active := id }.entering, board⟩ := by
  have times : ∀ other, { scheduler with active := id }.entering.time other = scheduler.time other :=
    time_entering { scheduler with active := id }
  have rates : ∀ other, { scheduler with active := id }.entering.rate other = scheduler.rate other :=
    Scheduler.rate_of_shape (Scheduler.shape_transferTo { scheduler with active := id } id)
  -- An entry may take away the excuse for being behind, but only from a dependent that is level by then.
  have level : ∀ other, other ≠ .cpu → Late ⟨scheduler, board⟩ other → ¬ Late ⟨{ scheduler with active := id }.entering, board⟩ other →
      0 ≤ scheduler.time other := by
    intro other dependent late early
    have finishing : Finishing ⟨scheduler, board⟩ → 0 ≤ scheduler.time other := by
      intro finishing
      obtain ⟨mode, state, work⟩ := finishing
      have states : { scheduler with active := id }.entering.state? .cpu = _ :=
        Scheduler.state?_transferTo { scheduler with active := id } id .cpu
      by_cases reference : id = .cpu
      · rcases drivable reference with running | level
        · refine absurd (.inr (.inr ⟨mode, ?_, work⟩)) early
          rw [show ({ scheduler with active := id } : Scheduler).state? .cpu = some .running from running] at states
          rw [states]
          simp [Thread.State.release]
        · exact level other dependent
      · refine absurd (.inr (.inr ⟨mode, ?_, work⟩)) early
        rw [if_neg reference] at states
        exact states ▸ state
    rcases late with active | awaited | finishes
    · rcases poised.level with reference | level | finishes
      · exact absurd (active.symm.trans reference) dependent
      · exact active ▸ level
      · exact finishing finishes
    · exact absurd (.inr (.inl awaited)) early
    · exact finishing finishes
  refine ⟨fun other dependent present => ?_, fun other dependent present early => ?_, fun other dependent present => ?_⟩
  · rw [times, rates]
    exact poised.pacing.behind other dependent present
  · rw [times, rates]
    by_cases late : Late ⟨scheduler, board⟩ other
    · have floor : (0 : Int) ≤ board.cpu.catchupUnits.toNat * scheduler.rate other := by positivity
      have level := level other dependent late early
      simp only
      omega
    · exact poised.pacing.caughtUp other dependent present late
  · rw [times]
    exact poised.pacing.ahead other dependent present

/-- In the middle of a drive. -/
structure Driven (slack : Nat) (kinds : List CoprocessorKind) (machine : Machine) : Prop where
  pacing : machine.Pacing slack .own kinds
  handed : machine.Handed slack kinds

theorem Poised.relax {machine : Machine} (poised : machine.Poised slack kinds) (more : Nat) : machine.Poised (slack + more) kinds where
  pacing := poised.pacing.relax more
  prompt := poised.prompt.relax more
  level := poised.level

theorem Poised.begins {scheduler : Scheduler} {board : Board} (poised : Poised slack kinds ⟨scheduler, board⟩)
    {id : ThreadId} (drivable : scheduler.Drivable id)
    (early : id ≠ .cpu → scheduler.state? id = some .parked → scheduler.time id ≤ slack + (paceOf kinds id).patience) :
    Driven slack kinds ⟨{ scheduler with active := id }.entering, board⟩ where
  pacing := poised.pacing_entering drivable
  handed := by
    refine ⟨?_, fun _ => ?_⟩
    · have prompt : Prompt slack kinds ⟨{ scheduler with active := id }, board⟩ := poised.prompt
      exact prompt.transferTo early
    · have states : { scheduler with active := id }.entering.state? id = _ :=
        Scheduler.state?_transferTo { scheduler with active := id } id id
      rw [if_pos rfl] at states
      exact states ▸ Thread.State.map_release_ne_parked _

/-- The fast method drives a dependent only while it is behind. -/
theorem Poised.begins_fast {scheduler : Scheduler} {board : Board} (poised : Poised slack kinds ⟨scheduler, board⟩)
    {id : ThreadId} (eligible : scheduler.Eligible id) : Driven slack kinds ⟨{ scheduler with active := id }.entering, board⟩ := by
  refine poised.begins eligible.drivable fun dependent parked => ?_
  have behind := eligible.behind dependent parked
  have patience := paceOf_patience kinds id
  omega

/-- The strict method drives everybody. Whoever stands at its point is ahead by at most one unit of work more than it was
when it started the last one. -/
theorem Poised.begins_strict {scheduler : Scheduler} {board : Board} (poised : Poised slack kinds ⟨scheduler, board⟩)
    {id : ThreadId} (drivable : scheduler.Drivable id) (present : id.index < 3 + kinds.length) :
    Driven (slack + (paceOf kinds id).longest * second) kinds ⟨{ scheduler with active := id }.entering, board⟩ := by
  refine (poised.relax _).begins drivable fun dependent _ => ?_
  have ahead := poised.pacing.ahead id dependent present
  have spent : (0 : Int) ≤ (board.workload id).units * second := Int.mul_nonneg (Int.natCast_nonneg _) (Int.natCast_nonneg _)
  simp only [Workload.Pace.reach] at ahead
  push_cast at ahead spent ⊢
  linarith

theorem Driven.turn (few : kinds.length ≤ Cartridge.maxCoprocessors) (driven : before.Driven slack kinds)
    (steered : before.Steered .own kinds) (ready : before.Inside) (took : Took before after action) (later : after.Sound .own kinds)
    (stays : action ≠ .stop) : after.Driven slack kinds where
  pacing := steered.pacing_turn few ready driven.handed.prompt driven.pacing took later
  handed := ⟨driven.handed.prompt.turn steered.sound ready took, driven.handed.awake.turn took stays⟩

theorem Driven.stop (few : kinds.length ≤ Cartridge.maxCoprocessors) (driven : before.Driven slack kinds)
    (steered : before.Steered .own kinds) (ready : before.Inside) (took : Took before after .stop) (later : after.Sound .own kinds) :
    after.Poised slack kinds where
  pacing := steered.pacing_turn few ready driven.handed.prompt driven.pacing took later
  prompt := driven.handed.prompt.turn steered.sound ready took
  level := took.stopped.level.imp_right .inl

/-- A frame on the way changes nothing. -/
theorem Driven.entering {scheduler : Scheduler} {board : Board} (driven : Driven slack kinds ⟨scheduler, board⟩)
    (dependent : scheduler.active ≠ .cpu) : Driven slack kinds ⟨scheduler.entering, board⟩ where
  pacing := by
    refine driven.pacing.same (Scheduler.shape_transferTo _ _) (time_entering scheduler) rfl (fun _ => rfl) ?_
    intro id late
    rcases late with active | awaited | ⟨mode, state, work⟩
    · exact .inl active
    · exact .inr (.inl awaited)
    · refine .inr (.inr ⟨mode, ?_, work⟩)
      have states : scheduler.entering.state? .cpu = _ := scheduler.state?_transferTo scheduler.active .cpu
      rw [if_neg dependent] at states
      exact states ▸ state
  handed := driven.handed.entering

theorem Driven.completeFrame [Host ω] {scheduler : Scheduler} {board : Board} (driven : Driven slack kinds ⟨scheduler, board⟩)
    (cheats : List Cheat) (host : ω) : Driven slack kinds ⟨scheduler, (board.completeFrame cheats host).1⟩ where
  pacing := by
    refine driven.pacing.same rfl (fun _ => rfl) rfl (fun id => by cases id <;> rfl) fun id late => ?_
    exact late.imp_right (Or.imp_right fun finishing => ⟨finishing.mode, finishing.state, finishing.work⟩)
  handed := ⟨driven.handed.prompt, driven.handed.awake⟩

end Machine
end MultiClock
