import Mathlib.Order.Bounds.Defs
import MultiClock.Proofs.BoardProgress
import MultiClock.Proofs.DriveEnds

/-! What a drive of a dependent comes to, exactly. The dependent does whole units of work: the one that it was let into, and then more
of them for as long as it is behind the reference. It stops at its boundary, and apart from the frames on the way nothing else moves. -/

namespace MultiClock

namespace Scheduler
variable {scheduler : Scheduler} {id : ThreadId} {room : Nat}

/-- The scheduler after a drive of a dependent that took so many of its clock units. -/
def arrived (scheduler : Scheduler) (id : ThreadId) (units : Nat) : Scheduler :=
  { (scheduler.advanced id units).modifyThread id Thread.park with
    active := id, event := .synchronized, entered := false, transfer := none }

theorem thread?_arrived (scheduler : Scheduler) (id other : ThreadId) (units : Nat) :
    (scheduler.arrived id units).thread? other =
      if id = other then (scheduler.thread? other).map fun thread => { thread with
        clock := { thread.clock with value := thread.clock.value + .ofNat (units * scheduler.rate .cpu) }, state := .parked }
      else scheduler.thread? other := by
  change ((scheduler.advanced id units).modifyThread id Thread.park).thread? other = _
  rw [thread?_modifyThread, advanced, thread?_modifyThread]
  split
  · rw [Option.map_map]
    rfl
  · rfl

/-- Where a thread was suspended before does not matter. -/
theorem arrived_modifyThread {change : Thread → Thread} (only : ∀ thread, ∃ state, change thread = { thread with state }) (units : Nat) :
    (scheduler.modifyThread id change).arrived id units = scheduler.arrived id units := by
  have kept : ∀ thread, (change thread).clock.frequency = thread.clock.frequency := by
    intro thread
    obtain ⟨state, same⟩ := only thread
    rw [same]
  simp only [arrived, advanced, rate_modifyThread scheduler id .cpu kept]
  simp only [modifyThread, Array.modify_modify]
  congr 2
  funext thread
  obtain ⟨state, same⟩ := only thread
  simp only [Function.comp_def, same, Thread.park]

theorem arrived_advanced (first second : Nat) : (scheduler.advanced id first).arrived id second = scheduler.arrived id (first + second) := by
  rw [arrived, advanced_advanced]
  rfl

theorem arrived_worked (first second : Nat) : (scheduler.worked id first).arrived id second = scheduler.arrived id (first + second) := by
  rw [worked, arrived_advanced]
  exact arrived_modifyThread (fun thread => ⟨.running, rfl⟩) _

theorem arrived_zero (scheduler : Scheduler) (id : ThreadId) : scheduler.arrived id 0 =
    { scheduler.modifyThread id Thread.park with active := id, event := .synchronized, entered := false, transfer := none } := by
  simp only [arrived, advanced, modifyThread, Array.modify_modify, Nat.zero_mul]
  congr 2
  funext thread
  simp [Thread.park]

theorem state?_worked {units : Nat} (steering : scheduler.Steering id room) : (scheduler.worked id units).state? id = some .running := by
  obtain ⟨thread, found⟩ := steering.found
  rw [worked, advanced, state?_modifyThread, if_pos rfl, passed, thread?_modifyThread, if_pos rfl, found]
  rfl

theorem rate_passed (scheduler : Scheduler) (id other : ThreadId) : (scheduler.passed id).rate other = scheduler.rate other :=
  rate_modifyThread _ _ _ fun _ => rfl

theorem rate_worked (scheduler : Scheduler) (id other : ThreadId) (units : Nat) :
    (scheduler.worked id units).rate other = scheduler.rate other :=
  (rate_advanced _ _ _ _).trans (scheduler.rate_passed id other)

theorem time_worked (steering : scheduler.Steering id room) :
    (scheduler.worked id room).time id = scheduler.time id + (room * scheduler.rate .cpu : Nat) := by
  rw [worked, steering.passed.time_advanced, time_passed, rate_passed]

theorem Steering.withEvent (steering : scheduler.Steering id room) (event : Event) : { scheduler with event }.Steering id room where
  mode := steering.mode
  entered := steering.entered
  active := steering.active
  free := steering.free
  dependent := steering.dependent
  found := steering.found
  reference := steering.reference
  usual := steering.usual
  space := steering.space

/-- After a frame the dependent goes on where it left. -/
theorem entering_running (running : scheduler.state? id = some .running) (active : scheduler.active = id) (inside : scheduler.entered = true)
    (free : scheduler.transfer = none) :
    entering { scheduler with event := .frame, transfer := none, entered := false } = { scheduler with event := .frame } := by
  obtain ⟨thread, found, state⟩ := Option.map_eq_some_iff.mp running
  have same : scheduler.modifyThread id Thread.release = scheduler := by
    apply modifyThread_same found
    rw [Thread.release, state]
    rfl
  have threads := congrArg Scheduler.threads same
  obtain ⟨mode, event, current, entered, desynchronized, list, transfer⟩ := scheduler
  subst active inside free
  simp only [modifyThread] at threads
  simp only [entering, transferTo, modifyThread, threads]

/-- The scheduler as a drive of a thread lets that thread in. -/
def admitted (scheduler : Scheduler) (id : ThreadId) : Scheduler := entering { scheduler with active := id }

theorem release_only (thread : Thread) : ∃ state, thread.release = { thread with state } := by
  unfold Thread.release
  split
  · exact ⟨.released, rfl⟩
  · exact ⟨thread.state, rfl⟩

theorem clock_release (thread : Thread) : thread.release.clock = thread.clock := by
  obtain ⟨state, same⟩ := release_only thread
  rw [same]

theorem thread?_admitted (scheduler : Scheduler) (id other : ThreadId) : (scheduler.admitted id).thread? other =
    if id = other then (scheduler.thread? other).map Thread.release else scheduler.thread? other :=
  thread?_modifyThread scheduler id other Thread.release

theorem time_admitted (scheduler : Scheduler) (id other : ThreadId) : (scheduler.admitted id).time other = scheduler.time other :=
  time_modifyThread scheduler id other clock_release

theorem rate_admitted (scheduler : Scheduler) (id other : ThreadId) : (scheduler.admitted id).rate other = scheduler.rate other :=
  rate_modifyThread scheduler id other fun thread => congrArg Clock.frequency (clock_release thread)

theorem running_admitted (scheduler : Scheduler) (id : ThreadId) :
    (scheduler.admitted id).state? id = some .running ↔ scheduler.state? id = some .running := by
  rw [state?, thread?_admitted, if_pos rfl, state?]
  cases scheduler.thread? id with
  | none => simp
  | some thread => cases state : thread.state <;> simp [Thread.release, state]

theorem awake_admitted (scheduler : Scheduler) (id : ThreadId) : (scheduler.admitted id).state? id ≠ some .parked := by
  rw [state?, thread?_admitted, if_pos rfl]
  cases scheduler.thread? id with
  | none => simp
  | some thread => cases state : thread.state <;> simp [Thread.release, state]

theorem arrived_admitted (scheduler : Scheduler) (id : ThreadId) (units : Nat) :
    (scheduler.admitted id).arrived id units = scheduler.arrived id units := by
  change (scheduler.modifyThread id Thread.release).arrived id units = _
  exact arrived_modifyThread release_only units

theorem steering_admitted (mode : scheduler.mode = .synchronize) (dependent : id ≠ .cpu) {thread reference : Thread}
    (found : scheduler.thread? id = some thread) (base : scheduler.thread? .cpu = some reference)
    (usual : scheduler.rate .cpu ≤ Clock.highFrequency) : (scheduler.admitted id).Steering id 0 where
  mode := mode
  entered := rfl
  active := rfl
  free := rfl
  dependent := dependent
  found := by
    rw [thread?_admitted, if_pos rfl, found]
    exact ⟨_, rfl⟩
  reference := by
    rw [thread?_admitted, if_neg dependent, base]
    exact ⟨_, rfl⟩
  usual := (scheduler.rate_admitted id .cpu).le.trans usual
  space := by
    rw [time_admitted, time_eq found, Nat.zero_mul]
    simpa using thread.clock.value.toInt_lt

end Scheduler

namespace Save
variable [Host ω] (onFrame : Board → StateM ω Board)

/-- What a host heard: notices, and so many frames that were handled. -/
inductive Heard (host : ω) : Nat → ω → Prop
  | nothing : Heard host 0 host
  | notice {frames : Nat} {later : ω} (notice : Notice) (earlier : Heard host frames later) : Heard host frames (Host.notice notice later)
  | frame {frames : Nat} {later : ω} (board : Board) (earlier : Heard host frames later) : Heard host (frames + 1) (onFrame board later).2

/-- What a drive of a thread does after an entry. -/
def afterEntry (budget : Nat) (thread : ThreadId) (rounds : Nat) (report : SaveReport) (entry : Scheduler × Board) :
    Run ω (Bool × Drive Board) := do
  let (scheduler, chips) := entry
  if scheduler.event = .frame then
    let frames ← Run.ofExcept (Checked.add32 report.frames 1)
    let chips ← onFrame chips
    enterUntilPoint onFrame budget thread rounds ⟨scheduler, chips, { report with frames }⟩
  else if scheduler.event = .synchronized ∧ scheduler.active = thread then
    return (true, ⟨scheduler, chips, report⟩)
  else
    let desyncs ← Run.ofExcept (Checked.add32 report.desyncs 1)
    return (false, ⟨scheduler, chips, { report with desyncs }⟩)

theorem enterUntilPoint_succ (budget : Nat) (thread : ThreadId) (rounds : Nat) (driving : Drive Board) :
    enterUntilPoint onFrame budget thread (rounds + 1) driving =
      driving.scheduler.enter budget driving.chips >>= afterEntry onFrame budget thread rounds driving.report := rfl

/-- From the middle of an entry on, a drive ends with this result if the host has enough patience, and so many frames are handled. -/
def Ends (thread : ThreadId) (frames : Nat) (scheduler : Scheduler) (board : Board) (report : SaveReport) (result : Bool × Drive Board) : Prop :=
  ∃ enough, ∀ budget rounds fuel, enough ≤ budget → enough ≤ rounds → enough ≤ fuel → ∀ host : ω,
    (scheduler.runSlices fuel board >>= afterEntry onFrame budget thread rounds report).Meets (fun _ => False)
      (fun returned later => returned = result ∧ Heard onFrame host frames later) host

/-- What the handling of a frame makes of a board, whatever the host heard before. It does not touch the display processor's work
in flight. -/
structure Handles (handle : Board → Board) : Prop where
  boards : ∀ board host, (onFrame board host).1 = handle board
  resumable : ∀ board, (handle board).ppu.continuation = board.ppu.continuation

/-- What is done at every frame depends on nothing that the host heard. -/
theorem handles_completeFrame (cheats : List Cheat) :
    Handles (Board.completeFrame cheats : Board → StateM ω Board) fun board => (board.completeFrame cheats ()).1 where
  boards _ _ := rfl
  resumable _ := rfl

variable {onFrame}

namespace Heard

theorem append {host middle later : ω} {first second : Nat} (begins : Heard onFrame host first middle)
    (ends : Heard onFrame middle second later) : Heard onFrame host (first + second) later := by
  induction ends with
  | nothing => exact begins
  | notice notice _ ih => exact .notice notice ih
  | frame board _ ih => exact .frame board ih

theorem notices (notices : List Notice) (host : ω) : Heard onFrame host 0 (notices.foldr Host.notice host) := by
  induction notices with
  | nil => exact .nothing
  | cons notice _ ih => exact .notice notice ih

end Heard

namespace Ends
variable {thread : ThreadId} {frames : Nat} {scheduler later : Scheduler} {board moved : Board} {report : SaveReport}
  {result : Bool × Drive Board}

theorem slice (goes : Board.Goes (board, scheduler) (moved, later)) (ends : Ends onFrame thread frames later moved report result) :
    Ends onFrame thread frames scheduler board report result := by
  obtain ⟨notices, sliced, free⟩ := goes
  obtain ⟨enough, ends⟩ := ends
  refine ⟨enough + 1, fun budget rounds fuel large many ample host => ?_⟩
  obtain ⟨fuel, rfl⟩ := Nat.exists_eq_add_of_le' (Nat.le_of_add_left_le ample)
  have sliced : ChipSet.slice scheduler.active board scheduler = .ok (moved, later, notices) := sliced
  simp only at free
  rw [Scheduler.runSlices, sliced, Run.ofExcept_ok, pure_bind, bind_assoc]
  apply Run.Meets.after_reportAll
  rw [free]
  refine (ends budget rounds fuel (by omega) (by omega) (by omega) _).mono ?_
  rintro returned last ⟨same, heard⟩
  exact ⟨same, by simpa using (Heard.notices notices host).append heard⟩

theorem goesOn {before after : Board × Scheduler} (goes : Board.GoesOn before after)
    (ends : Ends onFrame thread frames after.2 after.1 report result) : Ends onFrame thread frames before.2 before.1 report result := by
  induction goes using Relation.ReflTransGen.head_induction_on with
  | refl => exact ends
  | head first _ ih => exact slice first ih

/-- A frame is counted and handled, and the drive goes on. -/
theorem frame {notices : List Notice} (sliced : board.slice scheduler.active scheduler = .ok (moved, later, notices))
    (asked : later.transfer = some (.leave .frame)) (present : ∃ found, later.thread? later.active = some found)
    {handle : Board → Board} (handles : Handles onFrame handle) (countable : report.frames.toNat + 1 < 2 ^ 32)
    (ends : Ends onFrame thread frames { later with event := .frame, transfer := none, entered := false }.entering (handle moved)
      { report with frames := report.frames + 1 } result) : Ends onFrame thread (frames + 1) scheduler board report result := by
  obtain ⟨enough, ends⟩ := ends
  refine ⟨enough + 1, fun budget rounds fuel large many ample host => ?_⟩
  obtain ⟨fuel, rfl⟩ := Nat.exists_eq_add_of_le' (Nat.le_of_add_left_le ample)
  obtain ⟨rounds, rfl⟩ := Nat.exists_eq_add_of_le' (Nat.le_of_add_left_le many)
  have sliced : ChipSet.slice scheduler.active board scheduler = .ok (moved, later, notices) := sliced
  have counts : Checked.add32 report.frames 1 = .ok (report.frames + 1) := by
    rw [Checked.add32, if_neg]
    rw [UInt32.lt_iff_toNat_lt, UInt32.toNat_add, UInt32.toNat_one, Nat.mod_eq_of_lt countable]
    omega
  rw [Scheduler.runSlices, sliced, Run.ofExcept_ok, pure_bind, bind_assoc]
  apply Run.Meets.after_reportAll
  rw [asked]
  rw [bind_assoc]
  apply Run.Meets.after_report
  rw [pure_bind, afterEntry, if_pos rfl, counts, Run.ofExcept_ok, pure_bind]
  -- The rest of the drive ends alike for every host, so it does not matter what this one was told.
  generalize heard : Host.notice (.activity (.leave later.active .frame)) (notices.foldr Host.notice host) = told
  have handled : Run.Meets (fun _ => False) (fun last after => last = handle moved ∧ after = (onFrame moved told).2)
      (liftM (onFrame moved) : Run ω Board) told := .lift ⟨handles.boards moved told, rfl⟩
  refine handled.bind ?_
  rintro last after ⟨rfl, rfl⟩
  obtain ⟨found, there⟩ := present
  have there : { later with event := .frame, transfer := none, entered := false }.thread? later.active = some found := there
  rw [enterUntilPoint_succ, Scheduler.enter, if_neg Bool.false_ne_true]
  simp only [there, Option.isNone_some, Bool.false_eq_true, if_false]
  refine (ends budget rounds budget (by omega) (by omega) (by omega) _).mono ?_
  rintro returned last ⟨same, hears⟩
  refine ⟨same, ?_⟩
  have first : Heard onFrame host (0 + 1) (onFrame moved told).2 := by
    rw [← heard]
    exact .frame moved (.notice _ (Heard.notices notices host))
  rw [Nat.add_comm]
  simpa using first.append hears

/-- The driven thread stops at its point. -/
theorem stop {notices : List Notice} (sliced : board.slice scheduler.active scheduler = .ok (moved, later, notices))
    (asked : later.transfer = some (.leave .synchronized)) (active : later.active = thread) :
    Ends onFrame thread 0 scheduler board report
      (true, ⟨{ later with event := .synchronized, transfer := none, entered := false }, moved, report⟩) := by
  refine ⟨1, fun budget rounds fuel large many ample host => ?_⟩
  obtain ⟨fuel, rfl⟩ := Nat.exists_eq_add_of_le' ample
  have sliced : ChipSet.slice scheduler.active board scheduler = .ok (moved, later, notices) := sliced
  rw [Scheduler.runSlices, sliced, Run.ofExcept_ok, pure_bind, bind_assoc]
  apply Run.Meets.after_reportAll
  rw [asked]
  rw [bind_assoc]
  apply Run.Meets.after_report
  rw [pure_bind, afterEntry, if_neg (by simp), if_pos ⟨rfl, active⟩]
  exact .pure ⟨rfl, .notice _ (Heard.notices notices host)⟩

/-- A unit of work, with the frame that it may raise. -/
theorem work {id : ThreadId} {handle : Board → Board} (handles : Handles onFrame handle) (poised : board.Poised id)
    (steering : scheduler.Steering id (board.work handle id).units) (passes : scheduler.Passes id)
    (countable : report.frames.toNat + (board.work handle id).frames < 2 ^ 32)
    (ends : ∀ event, Ends onFrame id frames { scheduler.worked id (board.work handle id).units with event } (board.work handle id).board
      { report with frames := report.frames + .ofNat (board.work handle id).frames } result) :
    Ends onFrame id ((board.work handle id).frames + frames) scheduler board report result := by
  by_cases silent : (board.work handle id).frames = 0
  · have more := ends scheduler.event
    rw [silent, show UInt32.ofNat 0 = 0 from rfl, UInt32.add_zero] at more
    rw [silent, Nat.zero_add]
    exact goesOn (Board.work_goes handle poised steering passes silent) more
  · obtain ⟨rfl, raised⟩ := Board.raised_of_frames silent
    simp only [Board.work, Board.drawLine, if_pos raised] at steering countable ends ⊢
    refine goesOn (Board.drawn_goes poised steering passes) ?_
    have worked := steering.worked
    obtain ⟨thread, found⟩ := worked.found
    have sliced := Board.frame_slice { board with ppu := board.ppu.drawn board.bus } raised worked
    have again := Scheduler.entering_running (Scheduler.state?_worked steering) worked.active worked.entered worked.free
    simp only at sliced
    rw [Nat.add_comm]
    refine frame ((congrArg (Board.slice · _ _) worked.active).trans sliced) rfl ⟨thread, ?_⟩ handles countable ?_
    · exact (congrArg (Scheduler.thread? _) worked.active).trans found
    · rw [again]
      have ended : (handle { board with ppu := (board.ppu.drawn board.bus).handed }).ppu.continuation = .endOfLine := handles.resumable _
      exact goesOn (Board.endOfLine_goes _ ended (worked.withEvent .frame)) (ends .frame)

end Ends

/-- After so many units of work a driven dependent is level with the reference or ahead of it, and it went on at least once unless it was
in the middle of its work. -/
def Suffices (handle : Board → Board) (id : ThreadId) (scheduler : Scheduler) (board : Board) (count : Nat) : Prop :=
  0 ≤ scheduler.time id + ((board.works handle id count).units * scheduler.rate .cpu : Nat) ∧
    (scheduler.state? id ≠ some .running → 1 ≤ count)

section
variable {handle : Board → Board} {id : ThreadId} {scheduler : Scheduler} {board : Board} {report : SaveReport}

theorem suffices_zero : Suffices handle id scheduler board 0 ↔ 0 ≤ scheduler.time id ∧ scheduler.state? id = some .running := by
  simp [Suffices, Board.works]

theorem passes_iff {room : Nat} (steering : scheduler.Steering id room) (awake : scheduler.state? id ≠ some .parked) :
    scheduler.Passes id ↔ ¬ Suffices handle id scheduler board 0 := by
  obtain ⟨thread, found⟩ := steering.found
  rw [suffices_zero, Scheduler.Passes]
  rw [Scheduler.state?_eq found] at awake ⊢
  cases state : thread.state <;> simp [state] at awake ⊢

theorem suffices_succ (steering : scheduler.Steering id (board.work handle id).units) (count : Nat) :
    Suffices handle id scheduler board (count + 1) ↔
      Suffices handle id (scheduler.worked id (board.work handle id).units) (board.work handle id).board count := by
  simp only [Suffices, Board.works, Scheduler.state?_worked steering, Scheduler.time_worked steering, Scheduler.rate_worked]
  simp [Nat.add_mul, add_assoc]

/-- A dependent that is behind has room for its next unit of work. -/
theorem space_of_behind (poised : board.Poised id) (usual : scheduler.rate .cpu ≤ Clock.highFrequency) (behind : scheduler.time id < 0) :
    scheduler.time id + ((board.work handle id).units * scheduler.rate .cpu : Nat) < 0x8000000000000000 := by
  have brief := (board.work_units handle poised).2
  have short : (board.work handle id).units * scheduler.rate .cpu ≤ Workload.frameUnits * Clock.highFrequency := Nat.mul_le_mul brief usual
  have small : Workload.frameUnits * Clock.highFrequency < 0x8000000000000000 := by decide
  omega

theorem ends_works {onFrame : Board → StateM ω Board} (handles : Handles onFrame handle) {count : Nat}
    (poised : board.Poised id) (steering : scheduler.Steering id 0) (clear : scheduler.desynchronized = false)
    (awake : scheduler.state? id ≠ some .parked)
    (space : ¬ Suffices handle id scheduler board 0 →
      scheduler.time id + ((board.work handle id).units * scheduler.rate .cpu : Nat) < 0x8000000000000000)
    (least : ∀ fewer, fewer < count → ¬ Suffices handle id scheduler board fewer) (enough : Suffices handle id scheduler board count)
    (countable : report.frames.toNat + (board.works handle id count).frames < 2 ^ 32) :
    Ends onFrame id (board.works handle id count).frames scheduler board report
      (true, ⟨scheduler.arrived id (board.works handle id count).units, (board.works handle id count).board,
        { report with frames := report.frames + .ofNat (board.works handle id count).frames }⟩) := by
  -- The first unit of work is taken off: what follows is a drive that begins where that one ends.
  induction count generalizing scheduler board report with
  | zero =>
    have stays : ¬ scheduler.Passes id := fun passes => (passes_iff steering awake).mp passes enough
    have sliced := Board.stop_slice poised steering stays
    rw [← steering.active] at sliced
    have ends : Ends onFrame id 0 scheduler board report _ := Ends.stop sliced (by simp [Scheduler.stopped, clear]) steering.active
    simp only [Board.works, Scheduler.arrived_zero, show UInt32.ofNat 0 = 0 from rfl, UInt32.add_zero]
    have same : { scheduler.stopped id with event := .synchronized, transfer := none, entered := false } =
        { scheduler.modifyThread id Thread.park with active := id, event := .synchronized, entered := false, transfer := none } := by
      simp only [Scheduler.stopped, Scheduler.modifyThread, clear, steering.active]
    rw [← same]
    rw [steering.active] at ends
    exact ends
  | succ count ih =>
    have passes : scheduler.Passes id := (passes_iff steering awake).mpr (least 0 (Nat.succ_pos count))
    have entry : scheduler.Steering id (board.work handle id).units :=
      { steering with space := space (least 0 (Nat.succ_pos count)) }
    simp only [Board.works] at countable ⊢
    have counted : (report.frames + .ofNat (board.work handle id).frames).toNat = report.frames.toNat + (board.work handle id).frames := by
      rw [UInt32.toNat_add, UInt32.toNat_ofNat']
      omega
    refine Ends.work handles poised entry passes (by omega) fun event => ?_
    have running : (scheduler.worked id (board.work handle id).units).state? id = some .running := Scheduler.state?_worked entry
    have level : ¬ Suffices handle id (scheduler.worked id (board.work handle id).units) (board.work handle id).board 0 →
        (scheduler.worked id (board.work handle id).units).time id < 0 :=
      fun short => Int.not_le.mp fun ahead => short (suffices_zero.mpr ⟨ahead, running⟩)
    have rest := @ih { scheduler.worked id (board.work handle id).units with event } (board.work handle id).board
      { report with frames := report.frames + .ofNat (board.work handle id).frames } (poised.work handle) (entry.worked.withEvent event) clear
      (fun parked => absurd (running.symm.trans parked) (by decide)) (fun short => space_of_behind (poised.work handle) entry.worked.usual (level short))
      (fun fewer less => (suffices_succ entry fewer).not.mp (least (fewer + 1) (Nat.succ_lt_succ less)))
      ((suffices_succ entry count).mp enough) (by simp only; omega)
    rw [UInt32.ofNat_add, ← UInt32.add_assoc, ← Scheduler.arrived_worked]
    exact rest

/-- However far behind a dependent is, it catches up. -/
theorem exists_suffices (scheduler : Scheduler) (handle : Board → Board) (poised : board.Poised id) (ticking : 0 < scheduler.rate .cpu) :
    ∃ count, Suffices handle id scheduler board count := by
  refine ⟨(scheduler.time id).natAbs + 1, ?_, fun _ => Nat.le_add_left 1 _⟩
  have units := board.le_units handle poised ((scheduler.time id).natAbs + 1)
  have scaled : (board.works handle id ((scheduler.time id).natAbs + 1)).units ≤
      (board.works handle id ((scheduler.time id).natAbs + 1)).units * scheduler.rate .cpu := Nat.le_mul_of_pos_right _ ticking
  omega

/-- A drive ends before the clock could overflow. -/
theorem room_of_least {count : Nat} (poised : board.Poised id) (usual : scheduler.rate .cpu ≤ Clock.highFrequency)
    (fits : scheduler.time id < 0x8000000000000000)
    (space : scheduler.state? id ≠ some .running →
      scheduler.time id + ((board.work handle id).units * scheduler.rate .cpu : Nat) < 0x8000000000000000)
    (least : IsLeast {count | Suffices handle id scheduler board count} count) :
    scheduler.time id + ((board.works handle id count).units * scheduler.rate .cpu : Nat) < 0x8000000000000000 := by
  have short : ∀ fewer, fewer < count → ¬ Suffices handle id scheduler board fewer :=
    fun fewer less enough => Nat.not_lt.mpr (least.2 enough) less
  match count with
  | 0 => simpa [Board.works] using fits
  | 1 =>
    simp only [Board.works, Nat.add_zero]
    by_cases running : scheduler.state? id = some .running
    · exact space_of_behind poised usual (Int.not_le.mp fun ahead => short 0 Nat.one_pos (suffices_zero.mpr ⟨ahead, running⟩))
    · exact space running
  | count + 2 =>
    have behind : scheduler.time id + ((board.works handle id (count + 1)).units * scheduler.rate .cpu : Nat) < 0 :=
      Int.not_le.mp fun ahead => short (count + 1) (Nat.lt_succ_self _) ⟨ahead, fun _ => Nat.le_add_left 1 count⟩
    have last := Nat.mul_le_mul_right (scheduler.rate .cpu) (board.units_succ_le handle poised (count + 1))
    have line : Workload.frameUnits * scheduler.rate .cpu ≤ Workload.frameUnits * Clock.highFrequency := Nat.mul_le_mul_left _ usual
    have small : Workload.frameUnits * Clock.highFrequency < 0x8000000000000000 := by decide
    rw [Nat.add_mul] at last
    rw [show count + 2 = count + 1 + 1 from rfl]
    omega

end

/-- What a drive of a dependent comes to after so many units of work: the dependent is parked at its boundary, and nobody else has moved. -/
structure Delivers (handle : Board → Board) (id : ThreadId) (scheduler : Scheduler) (board : Board) (count : Nat) : Prop where
  least : IsLeast {count | Suffices handle id scheduler board count} count
  parked : (scheduler.arrived id (board.works handle id count).units).state? id = some .parked
  time : (scheduler.arrived id (board.works handle id count).units).time id =
    scheduler.time id + ((board.works handle id count).units * scheduler.rate .cpu : Nat)
  others : ∀ other, other ≠ id → (scheduler.arrived id (board.works handle id count).units).thread? other = scheduler.thread? other
  few : (board.works handle id count).frames < 2 ^ 30
  boundary : (board.works handle id count).board.Poised id
  chips : Board.Driven handle id (board.works handle id count).frames board (board.works handle id count).board

section
variable {handle : Board → Board} {id : ThreadId} {scheduler : Scheduler} {board : Board} {report : SaveReport}
  {kinds : List CoprocessorKind} (wired : scheduler.shape = wiring kinds) (present : id.index < scheduler.threads.size)
  (poised : board.Poised id)
  (space : scheduler.state? id ≠ some .running →
    scheduler.time id + ((board.work handle id).units * scheduler.rate .cpu : Nat) < 0x8000000000000000)
include wired present poised space

theorem exists_delivers : ∃ count, Delivers handle id scheduler board count := by
  obtain ⟨thread, found⟩ := Scheduler.found_of_lt present
  have rate := Scheduler.reference_rate wired
  have usual : scheduler.rate .cpu ≤ Clock.highFrequency := by
    rw [rate]
    decide
  have fits : scheduler.time id < 0x8000000000000000 := by
    rw [Scheduler.time_eq found]
    exact thread.clock.value.toInt_lt
  obtain ⟨count, least⟩ : ∃ count, IsLeast {count | Suffices handle id scheduler board count} count := by
    classical
    have enough := exists_suffices scheduler handle poised (by rw [rate]; decide)
    exact ⟨Nat.find enough, Nat.isLeast_find enough⟩
  have room := room_of_least poised usual fits space least
  have few : (board.works handle id count).frames < 2 ^ 30 := by
    have lines := board.frames_le_units handle id count
    rw [Scheduler.time_eq found, rate] at room
    have oldest := thread.clock.value.le_toInt
    simp only [Workload.frameUnits] at lines
    omega
  refine ⟨count, least, ?_, ?_, ?_, few, poised.works handle count, Board.driven_works handle id count board⟩
  · rw [Scheduler.state?, Scheduler.thread?_arrived, if_pos rfl, found]
    rfl
  · rw [Scheduler.time_eq found] at room ⊢
    rw [Scheduler.time, Scheduler.thread?_arrived, if_pos rfl, found]
    exact Clock.toInt_add_ofNat room
  · intro other different
    rw [Scheduler.thread?_arrived, if_neg different.symm]

/-- Control goes to the dependent once, and the drive ends when the last unit of work ends. -/
theorem Delivers.ends {onFrame : Board → StateM ω Board} (handles : Handles onFrame handle) {count : Nat}
    (delivers : Delivers handle id scheduler board count) (mode : scheduler.mode = .synchronize)
    (clear : scheduler.desynchronized = false)
    (countable : report.frames.toNat + (board.works handle id count).frames < 2 ^ 32) :
    Ends onFrame id (board.works handle id count).frames (scheduler.admitted id) board report
      (true, ⟨scheduler.arrived id (board.works handle id count).units, (board.works handle id count).board,
        { report with frames := report.frames + .ofNat (board.works handle id count).frames }⟩) := by
  obtain ⟨thread, found⟩ := Scheduler.found_of_lt present
  obtain ⟨reference, base⟩ : ∃ reference, scheduler.thread? .cpu = some reference :=
    Scheduler.found_of_lt (Nat.lt_of_le_of_lt (Nat.zero_le _) present)
  have usual : scheduler.rate .cpu ≤ Clock.highFrequency := by
    rw [Scheduler.reference_rate wired]
    decide
  have same : ∀ count, Suffices handle id (scheduler.admitted id) board count ↔ Suffices handle id scheduler board count := by
    intro count
    rw [Suffices, Scheduler.time_admitted, Scheduler.rate_admitted, Ne, Scheduler.running_admitted, Suffices]
  have begins : ¬ Suffices handle id (scheduler.admitted id) board 0 → (scheduler.admitted id).time id +
      ((board.work handle id).units * (scheduler.admitted id).rate .cpu : Nat) < 0x8000000000000000 := by
    intro short
    rw [same, suffices_zero, not_and_or] at short
    rw [Scheduler.time_admitted, Scheduler.rate_admitted]
    exact short.elim (fun behind => space_of_behind poised usual (Int.not_le.mp behind)) space
  have least : ∀ fewer, fewer < count → ¬ Suffices handle id (scheduler.admitted id) board fewer :=
    fun fewer less enough => Nat.not_lt.mpr (delivers.least.2 ((same fewer).mp enough)) less
  have ends := ends_works handles poised (Scheduler.steering_admitted mode poised.dependent found base usual) clear
    (scheduler.awake_admitted id) begins least ((same count).mpr delivers.least.1) countable
  rwa [Scheduler.arrived_admitted] at ends

end

/-- A drive of a dependent at its boundary ends undisturbed, after the units of work that it takes to be level with the reference. -/
theorem drive_delivers {onFrame : Board → StateM ω Board} {handle : Board → Board} (handles : Handles onFrame handle)
    {kinds : List CoprocessorKind} {scheduler : Scheduler} {board : Board} {id : ThreadId} (report : SaveReport)
    (wired : scheduler.shape = wiring kinds) (outside : scheduler.entered = false) (mode : scheduler.mode = .synchronize)
    (clear : scheduler.desynchronized = false) (present : id.index < scheduler.threads.size) (poised : board.Poised id)
    (space : scheduler.state? id ≠ some .running →
      scheduler.time id + ((board.work handle id).units * scheduler.rate .cpu : Nat) < 0x8000000000000000) :
    ∃ count, Delivers handle id scheduler board count ∧
      (report.frames.toNat + (board.works handle id count).frames < 2 ^ 32 →
        ∃ enough, ∀ budget, enough ≤ budget → ∀ host, ∃ later,
          drive onFrame budget id ⟨scheduler, board, report⟩ host =
            (.ok (true, ⟨scheduler.arrived id (board.works handle id count).units, (board.works handle id count).board,
              { report with frames := report.frames + .ofNat (board.works handle id count).frames }⟩), later) ∧
          Heard onFrame host (board.works handle id count).frames later) := by
  obtain ⟨count, delivers⟩ := exists_delivers wired present poised space
  refine ⟨count, delivers, fun countable => ?_⟩
  obtain ⟨enough, ends⟩ := delivers.ends wired present poised space handles mode clear countable
  refine ⟨enough + 1, fun budget large host => ?_⟩
  obtain ⟨budget, rfl⟩ := Nat.exists_eq_add_of_le' (Nat.le_of_add_left_le large)
  obtain ⟨_, later, returned, rfl, heard⟩ := (ends (budget + 1) budget (budget + 1) (by omega) (by omega) (by omega) host).exists_ok
  refine ⟨later, ?_, heard⟩
  obtain ⟨thread, found⟩ := Scheduler.found_of_lt present
  have there : ({ scheduler with active := id } : Scheduler).thread? id = some thread := found
  rw [← returned, drive, Scheduler.setActive, if_neg (by simp [outside]), if_neg (Nat.not_le.mpr present), Run.ofExcept_ok, pure_bind,
    enterUntilPoint_succ, Scheduler.enter, if_neg (by simp [outside])]
  simp only [there, Option.isNone_some, Bool.false_eq_true, if_false]
  rfl

/-- A machine that was just made, with its display processor driven through its first line. -/
theorem drive_delivers_first_line :
    let scheduler := { (Machine.new [.multiplier]).scheduler with mode := .synchronize }
    let board := Board.new [.multiplier]
    let handle := fun board : Board => (board.completeFrame [] ()).1
    ∃ count, Delivers handle .ppu scheduler board count ∧ ∃ enough, ∀ budget, enough ≤ budget →
      drive (Board.completeFrame []) budget .ppu ⟨scheduler, board, SaveReport.zero⟩ () =
        (.ok (true, ⟨scheduler.arrived .ppu (board.works handle .ppu count).units, (board.works handle .ppu count).board,
          { SaveReport.zero with frames := .ofNat (board.works handle .ppu count).frames }⟩), ()) := by
  intro scheduler board handle
  have wired : scheduler.shape = wiring [.multiplier] := Machine.wired_new (by decide)
  have poised : board.Poised .ppu := ⟨rfl, by decide⟩
  have usual : scheduler.rate .cpu ≤ Clock.highFrequency := by
    rw [Scheduler.reference_rate wired]
    decide
  have line : (board.work handle .ppu).units * scheduler.rate .cpu ≤ Workload.frameUnits * Clock.highFrequency :=
    Nat.mul_le_mul (board.work_units handle poised).2 usual
  have level : scheduler.time .ppu = 0 := rfl
  have small : Workload.frameUnits * Clock.highFrequency < 0x8000000000000000 := by decide
  have space : scheduler.time .ppu + ((board.work handle .ppu).units * scheduler.rate .cpu : Nat) < 0x8000000000000000 := by omega
  have handles : Handles (Board.completeFrame [] : Board → StateM Unit Board) handle := handles_completeFrame []
  obtain ⟨count, delivers, drives⟩ := drive_delivers handles SaveReport.zero wired rfl rfl rfl
    (by decide) poised fun _ => space
  have none : SaveReport.zero.frames = 0 := rfl
  rw [none, UInt32.toNat_zero, Nat.zero_add, UInt32.zero_add] at drives
  obtain ⟨enough, returns⟩ := drives (Nat.lt_trans delivers.few (by decide))
  refine ⟨count, delivers, enough, fun budget large => ?_⟩
  obtain ⟨_, returned, _⟩ := returns budget large ()
  exact returned

end Save
end MultiClock
