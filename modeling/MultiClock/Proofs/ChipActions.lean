import MultiClock.Chip
import MultiClock.Proofs.CheckedWords
import MultiClock.Proofs.DriveTrail
import MultiClock.Proofs.SliceFaults

/-! What a slice of a chip amounts to for its scheduler. Every slice of every chip is one of a few
actions, and the calls of a context say which one. -/

namespace MultiClock

/-- The snapshots that a machine may have loaded. Those of a machine of the same kind, taken after
nothing but such loads, keep registers in tighter bounds than a load itself checks. -/
inductive Loads
  | own
  | any

inductive Action
  /-- Nothing that the scheduler hears of. -/
  | rest
  | step (units : UInt32)
  /-- Leaves at the synchronization point. -/
  | stop
  /-- Goes on at the synchronization point. -/
  | pass
  | passStep (units : UInt32)
  | resume (target : ThreadId)
  | frame

def Action.units : Action → Nat
  | step units | passStep units => units.toNat
  | rest | stop | pass | resume _ | frame => 0

/-- The clock units that a thread is reported to have stepped. -/
def Notice.units (id : ThreadId) : Notice → Nat
  | .activity (.step thread units _) => if thread = id then units.toNat else 0
  | _ => 0

def unitsOf (id : ThreadId) (notices : List Notice) : Nat := (notices.map (Notice.units id)).sum

@[simp] theorem unitsOf_cons (id : ThreadId) (notice : Notice) (notices : List Notice) :
    unitsOf id (notice :: notices) = notice.units id + unitsOf id notices := rfl

namespace Scheduler

/-- The scheduler after an action of a thread. -/
inductive Does (id : ThreadId) (scheduler : Scheduler) : Action → Scheduler → Prop
  | rest : Does id scheduler .rest scheduler
  | step {units : UInt32} {clock : Int64} {later : Scheduler} (stepped : scheduler.step id units = .ok (clock, later)) :
      Does id scheduler (.step units) later
  | stop {later : Scheduler} (point : scheduler.synchronizePoint id = .ok (false, later)) :
      Does id scheduler .stop later
  | pass {later : Scheduler} (point : scheduler.synchronizePoint id = .ok (true, later)) :
      Does id scheduler .pass later
  | passStep {units : UInt32} {clock : Int64} {middle later : Scheduler}
      (point : scheduler.synchronizePoint id = .ok (true, middle)) (stepped : middle.step id units = .ok (clock, later)) :
      Does id scheduler (.passStep units) later
  | resume {target : ThreadId} {later : Scheduler} (resumed : scheduler.resume target = .ok later) :
      Does id scheduler (.resume target) later
  | frame {later : Scheduler} (left : scheduler.leave .frame = .ok later) : Does id scheduler .frame later

theorem Does.calls {id : ThreadId} {scheduler later : Scheduler} {action : Action}
    (does : scheduler.Does id action later) : scheduler.Calls id later := by
  cases does with
  | rest => exact .done _
  | step stepped => exact .step stepped (.done _)
  | stop point => exact .stop point
  | pass point => exact .pass point (.done _)
  | passStep point stepped => exact .pass point (.step stepped (.done _))
  | resume resumed => exact .resume resumed (.done _)
  | frame left => exact .frame left (.done _)

theorem Ready.passed {scheduler later : Scheduler} {id : ThreadId} (ready : scheduler.Ready id)
    (point : scheduler.synchronizePoint id = .ok (true, later)) : later.Ready id := by
  refine ready.kept (.point point) ?_
  obtain ⟨_, _, _, ⟨_, _, rfl⟩ | ⟨impossible, _⟩⟩ := synchronizePoint_eq_ok.mp point
  · exact ready.free
  · cases impossible

theorem mode_of_not_synchronizing (scheduler : Scheduler) (normal : ¬ scheduler.synchronizing = true) :
    scheduler.mode = .run := by
  cases mode : scheduler.mode <;> simp [synchronizing, mode] at normal ⊢

end Scheduler

@[simp] theorem Bus.size_modifyCoprocessor (bus : Bus) (index : Nat) (change : Latch → Latch) :
    (bus.modifyCoprocessor index change).coprocessors.size = bus.coprocessors.size := by
  simp [modifyCoprocessor]

/-- What a dependent does where it hands over control in normal execution, unless it is behind. It keeps control only up to a limit. -/
inductive Scheduler.Defers (scheduler : Scheduler) (id : ThreadId) (limit : Int) : Action → Prop
  | rest (patient : scheduler.mode = .run → scheduler.time id ≤ limit) : Defers scheduler id limit .rest
  | resume (normal : scheduler.mode = .run) (level : 0 ≤ scheduler.time id) : Defers scheduler id limit (.resume .cpu)

namespace Context

/-- A chip's context after an action. The bus keeps its latches, whatever is in them. -/
structure Does (cx : Context) (action : Action) (after : Context) : Prop where
  scheduler : cx.scheduler.Does cx.thread action after.scheduler
  thread : after.thread = cx.thread
  silent : Silent cx.notices → Silent after.notices
  units : ∀ id, unitsOf id after.notices = unitsOf id cx.notices + if id = cx.thread then action.units else 0
  latches : after.bus.coprocessors.size = cx.bus.coprocessors.size

/-- A slice that starts with nothing reported reports the steps of its action. -/
theorem Does.units_nil {bus : Bus} {scheduler : Scheduler} {thread : ThreadId} {action : Action} {after : Context}
    (does : Does ⟨bus, scheduler, thread, []⟩ action after) (id : ThreadId) :
    unitsOf id after.notices = if id = thread then action.units else 0 :=
  (does.units id).trans (Nat.zero_add _)

/-- The chip of a context may act. -/
abbrev Ready (cx : Context) : Prop := cx.scheduler.Ready cx.thread

abbrev Calm (cx : Context) : Prop := cx.scheduler.Calm

/-- An action without a step does not count. -/
theorem unitsOf_same {action : Action} (timeless : action.units = 0) {cx : Context} (notices : List Notice) (id : ThreadId) :
    unitsOf id notices = unitsOf id notices + if id = cx.thread then action.units else 0 := by simp [timeless]

theorem Does.rest (cx : Context) : cx.Does .rest cx := ⟨.rest, rfl, id, unitsOf_same rfl _, rfl⟩

/-- What a chip does to the bus next to its action. -/
theorem Does.withBus {cx after : Context} {action : Action} (does : cx.Does action after) {bus : Bus}
    (latches : bus.coprocessors.size = after.bus.coprocessors.size) : cx.Does action { after with bus } :=
  ⟨does.scheduler, does.thread, does.silent, does.units, latches.trans does.latches⟩

theorem Does.report {cx after : Context} {action : Action} (does : cx.Does action after) {notice : Notice}
    (other : ∀ activity, notice ≠ .activity activity) : cx.Does action (after.report notice) := by
  refine ⟨does.scheduler, does.thread, ?_, fun id => ?_, does.latches⟩
  · intro silent source target member
    rcases List.mem_cons.mp member with same | member
    · exact other _ same.symm
    · exact does.silent silent source target member
  · have none : notice.units id = 0 := by
      cases notice with
      | activity activity => exact absurd rfl (other activity)
      | _ => rfl
    rw [Context.report, unitsOf_cons, none, Nat.zero_add]
    exact does.units id

/-- What a chip did to the bus before its action. -/
theorem Does.afterBus {cx after : Context} {action : Action} {bus : Bus}
    (latches : bus.coprocessors.size = cx.bus.coprocessors.size) (does : Does { cx with bus } action after) :
    cx.Does action after :=
  ⟨does.scheduler, does.thread, does.silent, does.units, does.latches.trans latches⟩

theorem Does.step_after_pass {cx middle after : Context} {units : UInt32} (first : cx.Does .pass middle)
    (second : middle.Does (.step units) after) : cx.Does (.passStep units) after := by
  refine ⟨?_, second.thread.trans first.thread, second.silent ∘ first.silent, fun id => ?_, second.latches.trans first.latches⟩
  rotate_left
  · rw [second.units, first.units, first.thread]
    simp [Action.units]
  have stepped := second.scheduler
  rw [first.thread] at stepped
  cases first.scheduler with
  | pass point =>
    cases stepped with
    | step stepped => exact .passStep point stepped

theorem step_does (cx : Context) (units : UInt32) :
    Meets (Excused cx.Ready cx.Calm) (fun after => cx.Does (.step units) after) (cx.step units) := by
  obtain ⟨bus, scheduler, thread, notices⟩ := cx
  refine (scheduler.step_returns thread units).bind ?_
  rintro ⟨clock, later⟩ stepped
  refine .pure ⟨.step stepped, rfl, ?_, fun id => ?_, rfl⟩
  · intro silent source target member
    simp only [List.mem_cons, reduceCtorEq, Notice.activity.injEq, false_or] at member
    exact silent source target member
  · rw [unitsOf_cons, Nat.add_comm]
    simp only [Notice.units, Action.units, eq_comm]

section calls
variable {calm : Prop}

theorem synchronizePoint_does (cx : Context) :
    Meets (Excused cx.Ready calm) (fun result => cx.Does (if result.1 then .pass else .stop) result.2)
      cx.synchronizePoint := by
  obtain ⟨bus, scheduler, thread, notices⟩ := cx
  refine (scheduler.synchronizePoint_meets thread).bind ?_
  rintro ⟨passes, later⟩ point
  cases passes with
  | true => exact .pure ⟨.pass point, rfl, id, unitsOf_same rfl _, rfl⟩
  | false => exact .pure ⟨.stop point, rfl, id, unitsOf_same rfl _, rfl⟩

theorem leave_does (cx : Context) :
    Meets (Excused cx.Ready calm) (fun after => cx.Does .frame after) (cx.leave .frame) := by
  refine ((cx.scheduler.leave_meets .frame).permit (Excused.of_ready fun ready => ⟨ready.entered, ready.free⟩)).bind ?_
  exact fun later left => .pure ⟨.frame left, rfl, id, unitsOf_same rfl _, rfl⟩

theorem resume_does (cx : Context) (target : ThreadId) :
    Meets (Excused (cx.Ready ∧ target.index < cx.scheduler.threads.size) calm)
      (fun after => cx.Does (.resume target) after) (cx.resume target) := by
  refine ((cx.scheduler.resume_meets target).permit
    (Excused.of_ready fun ready => ⟨ready.1.entered, ready.1.free, ready.2⟩)).bind ?_
  exact fun later resumed => .pure ⟨.resume resumed, rfl, id, unitsOf_same rfl _, rfl⟩

/-- A chip that went on at its point may act as before. -/
theorem Does.ready {cx after : Context} (does : cx.Does .pass after) (ready : cx.Ready) : after.Ready := by
  have passed := does.scheduler
  rw [Ready, does.thread]
  cases passed with
  | pass point => exact Scheduler.Ready.passed ready point

theorem Does.still_calm {cx after : Context} (does : cx.Does .pass after) (calm : cx.Calm) : after.Calm := by
  cases does.scheduler with
  | pass point =>
    obtain ⟨_, _, _, ⟨_, _, same⟩ | ⟨impossible, _⟩⟩ := Scheduler.synchronizePoint_eq_ok.mp point
    · intro thread member
      rw [same] at member
      obtain ⟨position, inside, rfl⟩ := Array.mem_iff_getElem.mp member
      have placed : position < cx.scheduler.threads.size := by
        simpa only [Scheduler.passed, Scheduler.size_modifyThread] using inside
      have before : cx.scheduler.threads[position].clock.Calm := calm _ (Array.getElem_mem placed)
      simp only [Scheduler.passed, Scheduler.modifyThread, Array.getElem_modify]
      split <;> exact before
    · cases impossible

/-- The answer of a call that may transfer control to another chip. -/
def Asks (cx : Context) (target : ThreadId) (result : Bool × Context) : Prop :=
  result.1 = true ∧ cx.Does (.resume target) result.2 ∨ result.1 = false ∧ result.2 = cx

/-- The reference hands control to a chip exactly if that chip is behind. -/
theorem synchronize_asks (cx : Context) (other : ThreadId) :
    Meets (Excused (cx.Ready ∧ cx.thread = .cpu ∧ other.index < cx.scheduler.threads.size) calm)
      (fun result => cx.Asks other result ∧ (result.1 = true ↔ cx.scheduler.time other < 0))
      (cx.synchronize other) := by
  unfold synchronize
  split
  next wrong => exact Excused.unready (by simp) fun ready => wrong ready.2.1
  next =>
    refine ((cx.scheduler.clock_meets other).permit (Excused.of_ready fun ready => ready.2.2)).bind ?_
    rintro clock ⟨thread, found, rfl⟩
    have level := thread.clock.ahead_iff
    rw [← Scheduler.time_eq found] at level
    split
    next ahead => exact .pure ⟨.inr ⟨rfl, rfl⟩, by simpa using level.mp ahead⟩
    next behind =>
      refine ((cx.resume_does other).permit (Excused.of_ready fun ready => ⟨ready.1, ready.2.2⟩)).bind ?_
      exact fun after does => .pure ⟨.inl ⟨rfl, does⟩, by simpa using mt level.mpr behind⟩

/-- The answer of a call of a dependent that may hand control to the reference: in normal execution, and only if
the dependent is not behind. It keeps control only up to a limit. -/
structure HandsOver (cx : Context) (limit : Int) (result : Bool × Context) : Prop where
  asks : cx.Asks .cpu result
  normal : result.1 = true → cx.scheduler.mode = .run
  level : result.1 = true → 0 ≤ cx.scheduler.time cx.thread
  patient : result.1 = false → cx.scheduler.mode = .run → cx.scheduler.time cx.thread ≤ limit

theorem HandsOver.defers {cx : Context} {limit : Int} {result : Bool × Context} (hands : cx.HandsOver limit result) :
    ∃ action, cx.Does action result.2 ∧ cx.scheduler.Defers cx.thread limit action := by
  rcases hands.asks with ⟨resumed, does⟩ | ⟨stays, same⟩
  · exact ⟨_, does, .resume (hands.normal resumed) (hands.level resumed)⟩
  · exact ⟨_, same ▸ .rest cx, .rest (hands.patient stays)⟩

theorem HandsOver.quiet {cx : Context} {limit : Int} (patient : cx.scheduler.mode = .run → cx.scheduler.time cx.thread ≤ limit) :
    cx.HandsOver limit (false, cx) := ⟨.inr ⟨rfl, rfl⟩, by simp, by simp, fun _ => patient⟩

/-- The transfer that a dependent asks for if it is not behind. -/
theorem resume_handsOver {cx : Context} {limit : Int} (normal : ¬ cx.synchronizing = true)
    (level : 0 ≤ cx.scheduler.time cx.thread) :
    Meets (Excused (cx.Ready ∧ cx.thread ≠ .cpu) calm) (cx.HandsOver limit)
      (do return (true, ← cx.resume .cpu) : Except Fault (Bool × Context)) := by
  refine ((cx.resume_does .cpu).permit (Excused.of_ready fun ready => ⟨ready.1, ready.1.reference⟩)).bind fun after does => ?_
  exact .pure ⟨.inl ⟨rfl, does⟩, fun _ => cx.scheduler.mode_of_not_synchronizing normal, fun _ => level, by simp⟩

/-- While synchronizing nothing happens. -/
theorem handsOver_synchronizing {cx : Context} {limit : Int} (synchronizing : cx.synchronizing = true) :
    cx.HandsOver limit (false, cx) := by
  refine .quiet fun normal => ?_
  simp [Context.synchronizing, Scheduler.synchronizing, normal] at synchronizing

/-- A dependent hands control to the reference unless it is behind. -/
theorem synchronizeCpu_handsOver (cx : Context) :
    Meets (Excused (cx.Ready ∧ cx.thread ≠ .cpu) calm) (cx.HandsOver (-1)) cx.synchronizeCpu := by
  rw [synchronizeCpu]
  by_cases wrong : cx.thread = .cpu
  · rw [if_pos wrong]
    exact Excused.unready (by simp) fun ready => ready.2 wrong
  · rw [if_neg wrong]
    by_cases synchronizing : cx.synchronizing = true
    · rw [if_pos synchronizing]
      exact .pure (handsOver_synchronizing synchronizing)
    · rw [if_neg synchronizing]
      refine ((cx.scheduler.clock_meets cx.thread).permit (Excused.of_ready fun ready => ready.1.present)).bind ?_
      rintro clock ⟨thread, found, rfl⟩
      have level := thread.clock.ahead_iff
      rw [← Scheduler.time_eq found] at level
      split
      next behind =>
        have behind := mt level.mpr (by simpa using behind)
        exact .pure (.quiet fun _ => by omega)
      next ahead => exact resume_handsOver synchronizing (level.mp (by simpa using ahead))

end calls

/-- A dependent hands control to the reference if it is ahead by more than so many cycles. -/
theorem synchronizeAhead_handsOver (cx : Context) (cycles : UInt32) :
    Meets (Excused (cx.Ready ∧ cx.thread ≠ .cpu) cx.Calm) (cx.HandsOver (cycles.toNat * cx.scheduler.rate .cpu))
      (cx.synchronizeAhead cycles) := by
  rw [synchronizeAhead]
  by_cases wrong : cx.thread = .cpu
  · rw [if_pos wrong]
    exact Excused.unready (by simp) fun ready => ready.2 wrong
  · rw [if_neg wrong]
    refine ((cx.scheduler.clock_meets .cpu).permit (Excused.of_ready fun ready => ready.1.reference)).bind ?_
    rintro base ⟨reference, atCpu, rfl⟩
    by_cases synchronizing : cx.synchronizing = true
    · rw [if_pos synchronizing]
      exact .pure (handsOver_synchronizing synchronizing)
    · rw [if_neg synchronizing]
      refine ((cx.scheduler.clock_meets cx.thread).permit (Excused.of_ready fun ready => ready.1.present)).bind ?_
      rintro clock ⟨thread, found, rfl⟩
      have measured := thread.clock.aheadBy_meets cycles reference.clock.frequency
      refine (measured.permit fun _ overflow => .overflow overflow fun _ calm => (calm.found atCpu).1).bind ?_
      intro beyond exact
      rw [← Scheduler.time_eq found] at exact
      split
      next within =>
        refine .pure (.quiet fun _ => ?_)
        have within := mt exact.mpr (by simpa using within)
        rw [Scheduler.rate_eq atCpu]
        push_cast at within ⊢
        omega
      next ahead =>
        have ahead := exact.mp (by simpa using ahead)
        exact resume_handsOver synchronizing (by omega)

section bus
variable {cx after : Context}

/-! The calls of a context are about time and control. None of them touches the bus. -/

theorem bus_step {units : UInt32} (stepped : cx.step units = .ok after) : after.bus = cx.bus := by
  obtain ⟨⟨clock, later⟩, _, same⟩ := Except.bind_eq_ok stepped
  cases same
  rfl

theorem bus_resume {target : ThreadId} (resumed : cx.resume target = .ok after) : after.bus = cx.bus := by
  obtain ⟨later, _, same⟩ := Except.bind_eq_ok resumed
  cases same
  rfl

theorem bus_synchronizePoint {passes : Bool} (point : cx.synchronizePoint = .ok (passes, after)) : after.bus = cx.bus := by
  obtain ⟨⟨_, later⟩, _, same⟩ := Except.bind_eq_ok point
  cases same
  rfl

theorem bus_synchronize {other : ThreadId} {resumed : Bool} (called : cx.synchronize other = .ok (resumed, after)) :
    after.bus = cx.bus := by
  simp only [synchronize] at called
  split at called
  next => cases called
  next =>
    obtain ⟨clock, _, rest⟩ := Except.bind_eq_ok called
    split at rest
    next =>
      cases rest
      rfl
    next =>
      obtain ⟨later, asked, same⟩ := Except.bind_eq_ok rest
      cases same
      exact bus_resume asked

theorem bus_leave {event : Event} (left : cx.leave event = .ok after) : after.bus = cx.bus := by
  obtain ⟨later, _, same⟩ := Except.bind_eq_ok left
  cases same
  rfl

theorem bus_synchronizeCpu {resumed : Bool} (called : cx.synchronizeCpu = .ok (resumed, after)) : after.bus = cx.bus := by
  rw [synchronizeCpu] at called
  split at called
  next => cases called
  next =>
    split at called
    next =>
      cases called
      rfl
    next =>
      obtain ⟨clock, _, rest⟩ := Except.bind_eq_ok called
      split at rest
      next =>
        cases rest
        rfl
      next =>
        obtain ⟨later, asked, same⟩ := Except.bind_eq_ok rest
        cases same
        exact bus_resume asked

theorem bus_synchronizeAhead {cycles : UInt32} {resumed : Bool} (called : cx.synchronizeAhead cycles = .ok (resumed, after)) :
    after.bus = cx.bus := by
  rw [synchronizeAhead] at called
  split at called
  next => cases called
  next =>
    obtain ⟨reference, _, called⟩ := Except.bind_eq_ok called
    split at called
    next =>
      cases called
      rfl
    next =>
      obtain ⟨clock, _, called⟩ := Except.bind_eq_ok called
      obtain ⟨beyond, _, rest⟩ := Except.bind_eq_ok called
      split at rest
      next =>
        cases rest
        rfl
      next =>
        obtain ⟨later, asked, same⟩ := Except.bind_eq_ok rest
        cases same
        exact bus_resume asked

end bus

end Context
end MultiClock
