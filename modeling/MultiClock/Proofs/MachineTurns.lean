import MultiClock.Proofs.MachineInvariant
import MultiClock.Proofs.Settlement

/-! The loop that interleaves the chips, one turn after the other. A turn is a slice of the active chip and the
transfer of control that it asked for. Its action says where the clocks stand afterwards and which chip is next. -/

namespace MultiClock

variable {loads : Loads} {kinds : List CoprocessorKind}

/-- Where a thread is once control is transferred to it. -/
def Thread.State.release : Thread.State → Thread.State
  | parked | released => released
  | running => running

theorem Thread.release_state (thread : Thread) : thread.release.state = thread.state.release := by
  unfold Thread.release
  split
  next parked => simp [parked, Thread.State.release]
  next other => cases at_rest : thread.state <;> simp_all [Thread.State.release]

namespace Action

/-- The thread that is active after an action of a thread. -/
def next (id : ThreadId) : Action → ThreadId
  | resume target => target
  | rest | step _ | stop | pass | passStep _ | frame => id

/-- An action after which control is with the host. -/
def leaves : Action → Bool
  | stop | frame => true
  | rest | step _ | pass | passStep _ | resume _ => false

/-- An action that asks for no transfer leaves control where it is. -/
theorem keeps_of_silent {desynchronized : Bool} {action : Action} (silent : action.request desynchronized = none) :
    action.leaves = false ∧ ∀ target, action ≠ .resume target := by
  cases action with
  | rest | step | pass | passStep => exact ⟨rfl, nofun⟩
  | stop | resume | frame => cases silent

/-- An action that asks for the host resumes nobody. -/
theorem leaves_of_asked {desynchronized : Bool} {event : Event} {action : Action}
    (asked : action.request desynchronized = some (.leave event)) : action.leaves = true ∧ ∀ target, action ≠ .resume target := by
  cases action with
  | stop | frame => exact ⟨rfl, nofun⟩
  | rest | step | pass | passStep | resume => cases asked

theorem next_of_quiet {action : Action} (quiet : ∀ target, action ≠ .resume target) (id : ThreadId) : action.next id = id := by
  cases action with
  | resume target => exact absurd rfl (quiet target)
  | rest | step | stop | pass | passStep | frame => rfl

/-- Where a thread is suspended after an action of another one, or of its own. -/
def suspends (actor id : ThreadId) (state : Option Thread.State) : Action → Option Thread.State
  | resume target => if target = id then state.map Thread.State.release else state
  | stop => if actor = id then some .parked else state
  | pass | passStep _ => if actor = id then some .running else state
  | rest | step _ | frame => state

end Action

namespace Scheduler

/-- The scheduler before and after an action of its active thread. -/
structure Acted (before after : Scheduler) (action : Action) : Prop where
  mode : after.mode = before.mode
  shape : after.shape = before.shape
  flag : after.desynchronized = action.flag before.desynchronized before.synchronizing
  states : ∀ id, after.state? id = action.suspends before.active id (before.state? id)
  own : before.active ≠ .cpu → after.time before.active = before.time before.active + (action.units * before.rate .cpu : Nat)
  others : before.active ≠ .cpu → ∀ other, other ≠ before.active → after.time other = before.time other
  dependents : before.active = .cpu → ∀ other, other ≠ .cpu →
    after.time other = before.time other - (action.units * before.rate other : Nat)

theorem time_transferTo (scheduler : Scheduler) (target id : ThreadId) :
    (scheduler.transferTo target).time id = scheduler.time id := by
  refine time_modifyThread scheduler target id fun thread => ?_
  simp only [Thread.release]
  split <;> rfl

theorem shape_transferTo (scheduler : Scheduler) (target : ThreadId) : (scheduler.transferTo target).shape = scheduler.shape := by
  refine shape_modifyThread scheduler target Thread.release fun thread => ?_
  simp only [Thread.release]
  split <;> exact ⟨rfl, rfl⟩

theorem state?_transferTo (scheduler : Scheduler) (target id : ThreadId) : (scheduler.transferTo target).state? id =
    if target = id then (scheduler.state? id).map Thread.State.release else scheduler.state? id := by
  refine (state?_modifyThread scheduler target id Thread.release).trans ?_
  split
  · rw [state?, Option.map_map]
    exact congrArg (Option.map · _) (funext Thread.release_state)
  · rfl

theorem Does.acted {before middle : Scheduler} {action : Action} (does : before.Does before.active action middle)
    (indexed : before.Indexed) (stays : ∀ target, action ≠ .resume target) : Acted before middle action where
  mode := (does.kept indexed).mode
  shape := (does.kept indexed).shape
  flag := does.desynchronized indexed
  states id := by
    rw [does.state? indexed]
    cases action with
    | resume target => exact absurd rfl (stays target)
    | rest | step | frame => by_cases same : before.active = id <;> simp [Action.state?, Action.suspends, same]
    | stop | pass | passStep => rfl
  own dependent := does.time_own indexed dependent
  others dependent other different := by rw [time, (does.kept indexed).others dependent other different, time]
  dependents reference other dependent := by
    rw [reference] at does
    exact does.time_others indexed dependent

/-- Control passes to another thread as soon as the slice that asked for it is over. -/
theorem Does.acted_resume {before middle : Scheduler} {target : ThreadId}
    (does : before.Does before.active (.resume target) middle) (indexed : before.Indexed) :
    Acted before (middle.transferTo target) (.resume target) where
  mode := (does.kept indexed).mode
  shape := (shape_transferTo _ _).trans (does.kept indexed).shape
  flag := does.desynchronized indexed
  states id := by
    rw [state?_transferTo, does.state? indexed]
    by_cases same : before.active = id <;> simp [Action.state?, Action.suspends, same]
  own dependent := (time_transferTo _ _ _).trans (does.time_own indexed dependent)
  others dependent other different := by
    rw [time_transferTo, time, (does.kept indexed).others dependent other different, time]
  dependents reference other dependent := by
    rw [reference] at does
    rw [time_transferTo]
    exact does.time_others indexed dependent

end Scheduler

namespace Machine

/-- One turn, with what the slice reported. -/
inductive Turn (before : Machine) (notices : List Notice) : Machine → Prop
  | stays {board : Board} {scheduler : Scheduler}
      (sliced : ChipSet.slice before.scheduler.active before.board before.scheduler = .ok (board, scheduler, notices))
      (free : scheduler.transfer = none) : Turn before notices ⟨scheduler, board⟩
  | resumes {board : Board} {scheduler : Scheduler} {target : ThreadId}
      (sliced : ChipSet.slice before.scheduler.active before.board before.scheduler = .ok (board, scheduler, notices))
      (asked : scheduler.transfer = some (.resume target)) : Turn before notices ⟨scheduler.transferTo target, board⟩
  | leaves {board : Board} {scheduler : Scheduler} {event : Event}
      (sliced : ChipSet.slice before.scheduler.active before.board before.scheduler = .ok (board, scheduler, notices))
      (asked : scheduler.transfer = some (.leave event)) :
      Turn before notices ⟨{ scheduler with event, transfer := none, entered := false }, board⟩

/-- The board after a turn is the one after its slice. -/
theorem Turn.sliced {before after : Machine} {notices : List Notice} (turn : Turn before notices after) :
    ∃ scheduler, ChipSet.slice before.scheduler.active before.board before.scheduler =
      .ok (after.board, scheduler, notices) := by
  cases turn with
  | stays sliced => exact ⟨_, sliced⟩
  | resumes sliced => exact ⟨_, sliced⟩
  | leaves sliced => exact ⟨_, sliced⟩

/-- What a turn with an action does. -/
structure Took (before after : Machine) (action : Action) : Prop where
  turns : before.board.Turns before.scheduler after.board action before.scheduler.active
  acted : before.scheduler.Acted after.scheduler action
  entered : after.scheduler.entered = !action.leaves
  active : after.scheduler.active = action.next before.scheduler.active
  free : after.scheduler.transfer = none
  event : action.request before.scheduler.desynchronized = some (.leave after.scheduler.event) ∨ action.leaves = false
  present : after.scheduler.active.index < after.scheduler.threads.size
  passes : action.state? = some .running → ∃ thread, before.scheduler.thread? before.scheduler.active = some thread ∧
    before.scheduler.Passing before.scheduler.active thread
  stops : action = .stop → ∃ thread, before.scheduler.thread? before.scheduler.active = some thread ∧
    ¬ before.scheduler.Passing before.scheduler.active thread

section took
variable {before after : Machine} {action : Action}

/-- Whoever goes on at its point runs. -/
theorem Took.running (took : Took before after action) (passes : action.state? = some .running) :
    after.scheduler.state? before.scheduler.active = some .running := by
  rw [took.acted.states]
  cases action with
  | pass | passStep => exact if_pos rfl
  | rest | step | stop | resume | frame => cases passes

/-- Whoever runs goes on running until it stops at its point. -/
theorem Took.runs_on (took : Took before after action) (runs : before.scheduler.state? before.scheduler.active = some .running)
    (stays : action ≠ .stop) : after.scheduler.state? before.scheduler.active = some .running := by
  rw [took.acted.states, runs]
  cases action with
  | stop => exact absurd rfl stays
  | pass | passStep => exact if_pos rfl
  | resume => exact ite_self _
  | rest | step | frame => rfl

/-- A thread is suspended where it was, unless it stops or goes on at its point, or is given control. -/
theorem Took.state_kept (took : Took before after action) {id : ThreadId} (other : action ≠ .resume id)
    (silent : action.state? = none ∨ id ≠ before.scheduler.active) : after.scheduler.state? id = before.scheduler.state? id := by
  rw [took.acted.states]
  cases action with
  | resume target => exact if_neg fun same => other (congrArg Action.resume same)
  | rest | step | frame => rfl
  | stop | pass | passStep =>
    obtain impossible | apart := silent
    · cases impossible
    · exact if_neg (Ne.symm apart)

/-- Who has control keeps it until it hands it over. -/
theorem Took.keeps_control (took : Took before after action) (keeps : ∀ target, action ≠ .resume target) :
    after.scheduler.active = before.scheduler.active :=
  took.active.trans (Action.next_of_quiet keeps _)

/-- The host is told with which event it was given control. -/
theorem Took.event_eq {event : Event} (took : Took before after action) (leaves : action.leaves = true)
    (asked : action.request before.scheduler.desynchronized = some (.leave event)) : after.scheduler.event = event := by
  obtain told | stays := took.event
  · cases told.symm.trans asked
    rfl
  · cases leaves.symm.trans stays

end took

/-- Every turn of a sound machine is one of an action. -/
theorem Turn.took (few : kinds.length ≤ Cartridge.maxCoprocessors) {before after : Machine} {notices : List Notice}
    (sound : before.Sound loads kinds) (inside : before.scheduler.entered = true) (free : before.scheduler.transfer = none)
    (present : before.scheduler.active.index < before.scheduler.threads.size) (turn : Turn before notices after) :
    ∃ action, Took before after action ∧
      ∀ id, unitsOf id notices = if id = before.scheduler.active then action.units else 0 := by
  have indexed := Scheduler.indexed_of_wiring few sound.wired
  obtain ⟨middle, sliced⟩ := turn.sliced
  obtain ⟨action, does, _, units, turns, _⟩ :=
    (Board.slice_comes loads kinds before.board before.scheduler before.scheduler.active).of_ok sliced
  refine ⟨action, ?_, units⟩
  have kept := does.kept indexed
  have asks := does.transfer indexed free
  have size := Scheduler.size_of_shape kept.shape
  have stops : action = .stop → ∃ thread, before.scheduler.thread? before.scheduler.active = some thread ∧
      ¬ before.scheduler.Passing before.scheduler.active thread := by
    rintro rfl
    cases does with
    | stop point =>
      obtain ⟨thread, found, stays, _⟩ := Scheduler.stopped_of_point point
      exact ⟨thread, found, stays⟩
  -- The transfer that the slice asked for tells its actions apart: none, a resumption, or one of the two that leave.
  cases turn with
  | stays alike still =>
    cases sliced.symm.trans alike
    obtain ⟨returns, quiet⟩ := Action.keeps_of_silent (asks.symm.trans still)
    refine ⟨turns, does.acted indexed quiet, ?_, ?_, still, .inr returns, ?_, does.passing, stops⟩
    · rw [returns, Bool.not_false, ← inside]
      exact kept.entered
    · rw [Action.next_of_quiet quiet]
      exact kept.active
    · rw [kept.active, size]
      exact present
  | resumes alike asked =>
    cases sliced.symm.trans alike
    rw [asks] at asked
    cases action with
    | resume target =>
      cases asked
      refine ⟨turns, does.acted_resume indexed, kept.entered.trans inside, rfl, rfl, .inr rfl, ?_, does.passing, stops⟩
      rw [Scheduler.size_of_shape ((Scheduler.shape_transferTo _ _).trans kept.shape)]
      refine (does.target indexed asks).elim (fun busy => ?_) id
      rw [free] at busy
      cases busy
    | rest | step | stop | pass | passStep | frame => cases asked
  | leaves alike asked =>
    cases sliced.symm.trans alike
    rw [asks] at asked
    obtain ⟨leaves, quiet⟩ := Action.leaves_of_asked asked
    have acted := does.acted indexed quiet
    refine ⟨turns, ⟨acted.mode, acted.shape, acted.flag, acted.states, acted.own, acted.others, acted.dependents⟩, ?_, ?_, rfl,
      .inl asked, ?_, does.passing, stops⟩
    · rw [leaves]
      rfl
    · rw [Action.next_of_quiet quiet]
      exact kept.active
    · change middle.active.index < middle.threads.size
      rw [kept.active, size]
      exact present

end Machine
end MultiClock
