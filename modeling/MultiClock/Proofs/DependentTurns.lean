import MultiClock.Chip.Coprocessor
import MultiClock.Chip.Ppu
import MultiClock.Chip.Smp
import MultiClock.Proofs.ActionEffects

/-! The slices of the dependents. For the scheduler a dependent is the work that is left of its current
unit: how many slices, how many clock units, and whether a frame is due. Every slice makes that less,
unless the dependent is at its synchronization point. -/

namespace MultiClock

/-- What is left of a unit of work. -/
structure Workload where
  slices : Nat
  /-- Clock units that have yet to be stepped. -/
  units : Nat
  /-- Frames that have yet to be raised. -/
  frames : Nat
deriving DecidableEq

namespace Workload

def idle : Workload := ⟨0, 0, 0⟩

/-- Clock units of a line, after which a frame is raised at most once. -/
def frameUnits : Nat := 1364

/-- How a dependent keeps pace with the reference. -/
structure Pace where
  /-- How far ahead it may be when it starts a new unit of work without handing over control. -/
  patience : Int
  /-- The clock units of its longest unit of work. -/
  longest : Nat
  /-- The clock units of its shortest unit of work. -/
  shortest : Nat

/-- A dependent that hands over control after every unit of work, unless it is behind. -/
def Pace.prompt (longest shortest : Nat) : Pace := ⟨-1, longest, shortest⟩

/-- A dependent's work before and after a slice with an action, at a distance from the reference. A new unit of work
is short, takes its time, and raises a frame only if it takes the time of a line. Between two units the dependent
hands over control if it is far ahead, and never if it is behind. -/
inductive Advances (pace : Pace) (mode : Scheduler.Mode) (time : Int) (before after : Workload) : Action → Prop
  | rest (shorter : after.slices < before.slices) (units : after.units = before.units)
      (frames : after.frames ≤ before.frames) (patient : mode = .run → time ≤ pace.patience) : Advances pace mode time before after .rest
  | step {units : UInt32} (shorter : after.slices < before.slices) (spent : before.units = units.toNat + after.units)
      (frames : after.frames ≤ before.frames) (working : 0 < after.slices) : Advances pace mode time before after (.step units)
  | stop (before_idle : before = idle) (after_idle : after = idle) : Advances pace mode time before after .stop
  | pass (before_idle : before = idle) (short : after.slices < 64) (long : 0 < after.units) (brief : after.units ≤ pace.longest)
      (frames : after.frames * frameUnits ≤ after.units) (whole : pace.shortest ≤ after.units) :
      Advances pace mode time before after .pass
  | passStep {units : UInt32} (before_idle : before = idle) (short : after.slices < 64) (long : 0 < units.toNat)
      (brief : units.toNat ≤ pace.longest) (rest : after.units = 0) (frames : after.frames = 0)
      (working : 0 < after.slices) (whole : pace.shortest ≤ units.toNat) : Advances pace mode time before after (.passStep units)
  | resume (normal : mode = .run) (level : 0 ≤ time) (shorter : after.slices < before.slices)
      (units : after.units = before.units) (frames : after.frames ≤ before.frames) :
      Advances pace mode time before after (.resume .cpu)
  | frame (shorter : after.slices < before.slices) (units : after.units = before.units)
      (frames : before.frames = after.frames + 1) (working : 0 < after.slices) : Advances pace mode time before after .frame

/-- A slice that starts a new unit of work. -/
structure Begins (pace : Pace) (before after : Workload) (action : Action) : Prop where
  idle : before = .idle
  running : action.state? = some .running
  short : after.slices < 64
  long : 0 < action.units + after.units
  brief : action.units + after.units ≤ pace.longest
  whole : pace.shortest ≤ action.units + after.units
  frames : (action.frames + after.frames) * frameUnits ≤ action.units + after.units

/-- A slice that gets on with the unit of work in flight. With none in flight the dependent stops. -/
structure Continues (before after : Workload) (action : Action) : Prop where
  closer : action = .stop ∨ action.state? = none ∧ after.slices < before.slices
  spent : action.units + after.units = before.units
  frames : action.frames + after.frames ≤ before.frames

theorem Advances.begins_or_continues {pace : Pace} {mode : Scheduler.Mode} {time : Int} {before after : Workload} {action : Action}
    (advances : before.Advances pace mode time after action) : before.Begins pace after action ∨ before.Continues after action := by
  cases advances with
  | pass idle short long brief frames whole =>
    refine .inl ⟨idle, rfl, short, ?_, ?_, ?_, ?_⟩ <;> simp [Action.units, Action.frames, *]
  | passStep idle short long brief rest frames working whole =>
    refine .inl ⟨idle, rfl, short, ?_, ?_, ?_, ?_⟩ <;> simp [Action.units, Action.frames, *]
  | step shorter spent frames => exact .inr ⟨.inr ⟨rfl, shorter⟩, spent.symm, (Nat.zero_add _).le.trans frames⟩
  | rest shorter units frames | resume _ _ shorter units frames =>
    exact .inr ⟨.inr ⟨rfl, shorter⟩, (Nat.zero_add _).trans units, (Nat.zero_add _).le.trans frames⟩
  | frame shorter units frames =>
    exact .inr ⟨.inr ⟨rfl, shorter⟩, (Nat.zero_add _).trans units, (Nat.add_comm _ _).le.trans frames.ge⟩
  | stop before_idle after_idle => exact .inr ⟨.inl rfl, by simp [Action.units, *], by simp [Action.frames, *]⟩

end Workload

/-- What a dependent's slice comes to. The bounds of its registers keep its counters in their words. -/
def Turns (cx : Context) (pace : Workload.Pace) (bounded : χ → Prop) (workload : χ → Workload) (before : χ)
    (result : χ × Context) : Prop :=
  ∃ action, cx.Does action result.2 ∧
    (workload before).Advances pace cx.scheduler.mode (cx.scheduler.time cx.thread) (workload result.1) action ∧
    (bounded before → bounded result.1)

/-- A dependent's slice is ready: it executes, and its registers are within their bounds. -/
def Prepared (cx : Context) (bounded : Prop) : Prop := cx.Ready ∧ cx.thread ≠ .cpu ∧ bounded

/-- A slice that only lets the reference catch up, if it has to. -/
theorem Workload.advances_of_defers {scheduler : Scheduler} {id : ThreadId} {pace : Pace} {limit : Int} {action : Action}
    {before after : Workload} (defers : scheduler.Defers id limit action) (low : limit ≤ pace.patience) (shorter : after.slices < before.slices)
    (units : after.units = before.units) (frames : after.frames ≤ before.frames) :
    before.Advances pace scheduler.mode (scheduler.time id) after action := by
  cases defers with
  | rest patient => exact .rest shorter units frames fun normal => Int.le_trans (patient normal) low
  | resume normal level => exact .resume normal level shorter units frames

theorem Workload.advances_of_handsOver {cx : Context} {pace : Pace} {limit : Int} {result : Bool × Context} {before after : Workload}
    (hands : cx.HandsOver limit result) (low : limit ≤ pace.patience) (shorter : after.slices < before.slices)
    (units : after.units = before.units) (frames : after.frames ≤ before.frames) :
    ∃ action, cx.Does action result.2 ∧ before.Advances pace cx.scheduler.mode (cx.scheduler.time cx.thread) after action := by
  obtain ⟨action, does, defers⟩ := hands.defers
  exact ⟨action, does, advances_of_defers defers low shorter units frames⟩

namespace Smp

structure Bounded (smp : Smp) : Prop where
  elapsed : smp.elapsed < sampleUnits
  samples : smp.sampleCount.toNat ≤ sampleCapacity

/-- An instruction with so many cycles left. Even without any it takes one more. -/
def executing (cycles : UInt8) : Workload := ⟨max cycles.toNat 1 + 2, cycleUnits.toNat * max cycles.toNat 1, 0⟩

def Continuation.workload : Continuation → Workload
  | idle => .idle
  | execute _ _ cycles => executing cycles
  | access _ _ synchronized => ⟨if synchronized then 1 else 2, 0, 0⟩

def workload (smp : Smp) : Workload := smp.continuation.workload

/-- It is patient for a millisecond, and its instructions take one to three cycles. -/
def pace (reference : Nat) : Workload.Pace := ⟨aheadUnits.toNat * reference, 72, 24⟩

theorem workload_slices (smp : Smp) : smp.workload.slices = 0 ↔ Chip.atBoundary smp = true := by
  cases at_work : smp.continuation with
  | idle => simp [workload, Continuation.workload, at_work, Workload.idle, Chip.atBoundary]
  | execute opcode operand cycles => simp [workload, Continuation.workload, executing, at_work, Chip.atBoundary]
  | access opcode operand synchronized =>
    cases synchronized <;> simp [workload, Continuation.workload, at_work, Chip.atBoundary]

theorem workload_le (smp : Smp) : smp.workload.slices ≤ 300 ∧ smp.workload.units ≤ 6120 := by
  unfold workload
  cases smp.continuation with
  | idle => exact ⟨Nat.zero_le _, Nat.zero_le _⟩
  | execute opcode operand cycles =>
    have short := cycles.toNat_lt
    simp only [Continuation.workload, executing, cycleUnits, UInt32.reduceToNat]
    omega
  | access opcode operand synchronized =>
    simp only [Continuation.workload]
    split <;> omega

theorem execute_advances (pace : Workload.Pace) (mode : Scheduler.Mode) (time : Int) (opcode : Opcode) (operand cycles : UInt8) :
    (Continuation.execute opcode operand cycles).workload.Advances pace mode time
      (if 1 < cycles then Continuation.execute opcode operand (cycles - 1) else .access opcode operand false).workload
      (.step cycleUnits) := by
  by_cases several : 1 < cycles
  · obtain ⟨more, fewer⟩ := counted_down several
    rw [if_pos several]
    refine .step ?_ ?_ (Nat.le_refl 0) ?_ <;> simp only [Continuation.workload, executing, fewer]
    · omega
    · simp only [cycleUnits, UInt32.reduceToNat]
      omega
    · omega
  · have last : cycles.toNat ≤ 1 := UInt8.le_iff_toNat_le.mp (UInt8.not_lt.mp several)
    rw [if_neg several]
    refine .step ?_ ?_ (Nat.le_refl 0) Nat.two_pos <;> simp only [Continuation.workload, executing]
    · simp only [Bool.false_eq_true, if_false]
      omega
    · rw [Nat.max_eq_right last]
      rfl

theorem fetch_advances (reference : Nat) (mode : Scheduler.Mode) (time : Int) (smp : Smp) :
    Workload.idle.Advances (pace reference) mode time smp.fetch.workload .pass := by
  change Workload.idle.Advances (pace reference) mode time (executing (Opcode.decode smp.ram[smp.pc]).cycles) .pass
  cases Opcode.decode smp.ram[smp.pc] <;> exact .pass rfl (by decide) (by decide) (by simp only [pace]; decide) (by decide)
    (by simp only [pace]; decide)

theorem mixed_returns (mix : Int32) (input : Int8) : ∃ later, mixed mix input = .ok later := by
  have low := mix.le_toInt
  have high := mix.toInt_lt
  have quiet := input.le_toInt
  have loud := input.toInt_lt
  refine ⟨_, if_pos ⟨?_, ?_⟩⟩
  · rw [show Int32.minValue.toInt = -2 ^ 31 from rfl]
    omega
  · rw [show Int32.maxValue.toInt = 2 ^ 31 - 1 from rfl]
    omega

theorem perform_meets {permitted : Fault → Prop} (smp : Smp) (opcode : Opcode) (operand : UInt8) (bus : Bus) :
    Meets permitted (fun result => (smp.Bounded → result.1.Bounded) ∧
        result.2.coprocessors.size = bus.coprocessors.size)
      (smp.perform opcode operand bus) := by
  cases opcode with
  | mix =>
    obtain ⟨mix, returned⟩ := mixed_returns smp.mix smp.ram[inputAddress operand smp.a].toInt8
    simp only [perform, returned]
    exact .pure ⟨fun bounded => ⟨bounded.elapsed, bounded.samples⟩, rfl⟩
  | portRead | portWrite | store => exact .pure ⟨fun bounded => ⟨bounded.elapsed, bounded.samples⟩, rfl⟩

theorem emit_bounded {smp : Smp} (bounded : smp.Bounded) : smp.emit.Bounded := by
  unfold emit
  split
  next room =>
    refine ⟨bounded.elapsed, ?_⟩
    simp only [sampleCapacity, UInt16.toNat_add]
    simp only [UInt16.reduceToNat]
    omega
  next => exact bounded

theorem elapse_meets {calm : Prop} (smp : Smp) :
    Meets (Excused smp.Bounded calm)
      (fun later => smp.Bounded → later.Bounded) (smp.elapse cycleUnits) := by
  have sums := Checked.add32_meets smp.elapsed cycleUnits
  refine (sums.permit ?_).bind fun elapsed sum => ?_
  · rintro _ ⟨rfl, beyond⟩
    refine .unready (by simp) fun bounded => ?_
    have within := UInt32.lt_iff_toNat_lt.mp bounded.elapsed
    simp only [sampleUnits, cycleUnits, UInt32.reduceToNat] at within beyond
    omega
  · split
    next below => exact .pure fun bounded => ⟨below, bounded.samples⟩
    next due =>
      refine .pure fun bounded => emit_bounded ⟨?_, bounded.samples⟩
      have within := UInt32.lt_iff_toNat_lt.mp bounded.elapsed
      have full : sampleUnits ≤ elapsed := UInt32.not_lt.mp due
      apply UInt32.lt_iff_toNat_lt.mpr
      rw [UInt32.toNat_sub_of_le _ _ full]
      simp only [sampleUnits, cycleUnits, UInt32.reduceToNat] at within sum ⊢
      omega

/-- What a slice makes of the registers and of the bus, and the action that comes with it. -/
inductive Moves (cx : Context) (before : Smp) : Smp → Bus → Action → Prop
  | stop (idle : before.continuation = .idle) : Moves cx before before cx.bus .stop
  | pass (idle : before.continuation = .idle) : Moves cx before before.fetch cx.bus .pass
  | step (opcode : Opcode) (operand cycles : UInt8) (executing : before.continuation = .execute opcode operand cycles)
      {later : Smp} (elapsed : before.elapse cycleUnits = .ok later) :
      Moves cx before
        { later with continuation := if 1 < cycles then .execute opcode operand (cycles - 1) else .access opcode operand false }
        cx.bus (.step cycleUnits)
  | ask (opcode : Opcode) (operand : UInt8) (accessing : before.continuation = .access opcode operand false)
      (normal : cx.scheduler.mode = .run) (level : 0 ≤ cx.scheduler.time cx.thread) :
      Moves cx before { before with continuation := .access opcode operand true } cx.bus (.resume .cpu)
  | complete (opcode : Opcode) (operand : UInt8) (synchronized : Bool)
      (accessing : before.continuation = .access opcode operand synchronized)
      (behind : synchronized = false → opcode.accessesPorts = true → cx.scheduler.mode = .run → cx.scheduler.time cx.thread < 0)
      {performed : Smp} {bus : Bus} (performs : before.perform opcode operand cx.bus = .ok (performed, bus))
      {action : Action} (defers : cx.scheduler.Defers cx.thread (aheadUnits.toNat * cx.scheduler.rate .cpu) action) :
      Moves cx before { performed with continuation := .idle } bus action

theorem complete_moves (smp : Smp) (opcode : Opcode) (operand : UInt8) (synchronized : Bool) (cx : Context)
    (accessing : smp.continuation = .access opcode operand synchronized)
    (behind : synchronized = false → opcode.accessesPorts = true → cx.scheduler.mode = .run → cx.scheduler.time cx.thread < 0) :
    Meets (Excused (Prepared cx smp.Bounded) cx.Calm)
      (fun result => ∃ action, cx.Does action result.2 ∧ smp.Moves cx result.1 result.2.bus action) (smp.complete opcode operand cx) := by
  obtain ⟨bus, scheduler, thread, notices⟩ := cx
  refine (smp.perform_meets opcode operand bus).returned.bind ?_
  rintro ⟨performed, written⟩ ⟨performs, _, latches⟩
  have handing := Context.synchronizeAhead_handsOver ⟨written, scheduler, thread, notices⟩ aheadUnits
  refine (handing.permit (Excused.of_ready fun ready => ⟨ready.1, ready.2.1⟩)).returned.bind ?_
  rintro ⟨resumed, after⟩ ⟨called, hands⟩
  obtain ⟨action, does, defers⟩ := hands.defers
  cases Context.bus_synchronizeAhead called
  exact .pure ⟨action, .afterBus latches does, .complete opcode operand synchronized accessing behind performs defers⟩

theorem slice_moves (smp : Smp) (cx : Context) :
    Meets (Excused (Prepared cx smp.Bounded) cx.Calm)
      (fun result => ∃ action, cx.Does action result.2 ∧ smp.Moves cx result.1 result.2.bus action) (Chip.slice smp cx) := by
  simp only [Chip.slice, slice]
  cases at_work : smp.continuation with
  | idle =>
    refine (cx.synchronizePoint_does.permit (Excused.of_ready And.left)).returned.bind ?_
    rintro ⟨passes, after⟩ ⟨point, does⟩
    have same := Context.bus_synchronizePoint point
    cases passes with
    | true => exact .pure ⟨_, does, same ▸ .pass at_work⟩
    | false => exact .pure ⟨_, does, same ▸ .stop at_work⟩
  | execute opcode operand cycles =>
    refine ((cx.step_does cycleUnits).permit (Excused.of_ready And.left)).returned.bind fun after called => ?_
    obtain ⟨stepped, does⟩ := called
    have same := Context.bus_step stepped
    refine (smp.elapse_meets.permit (Excused.of_ready fun ready => ready.2.2)).returned.bind fun later elapsed => ?_
    exact .pure ⟨_, does, same ▸ .step opcode operand cycles at_work elapsed.1⟩
  | access opcode operand synchronized =>
    simp only
    split
    next settled =>
      refine smp.complete_moves opcode operand synchronized cx at_work fun fresh ports => ?_
      simp [fresh, ports] at settled
    next unsettled =>
      have fresh : synchronized = false := by
        cases synchronized <;> simp at unsettled ⊢
      subst fresh
      refine (cx.synchronizeCpu_handsOver.permit (Excused.of_ready fun ready => ⟨ready.1, ready.2.1⟩)).returned.bind ?_
      rintro ⟨resumed, after⟩ ⟨called, ⟨rfl, does⟩ | ⟨rfl, same⟩, normal, level, patient⟩
      · have same := Context.bus_synchronizeCpu called
        exact .pure ⟨_, does, same ▸ .ask opcode operand at_work (normal rfl) (level rfl)⟩
      · rw [same]
        refine smp.complete_moves opcode operand false cx at_work fun _ _ running => ?_
        exact Int.lt_of_le_sub_one (patient rfl running)

theorem Moves.bounded {cx : Context} {before after : Smp} {bus : Bus} {action : Action} (moves : before.Moves cx after bus action)
    (bounded : before.Bounded) : after.Bounded := by
  cases moves with
  | stop => exact bounded
  | pass | ask => exact ⟨bounded.elapsed, bounded.samples⟩
  | step opcode operand cycles executing elapsed =>
    have kept := (@elapse_meets True before).of_ok elapsed bounded
    exact ⟨kept.elapsed, kept.samples⟩
  | complete opcode operand synchronized accessing behind performs =>
    have kept := ((@perform_meets (fun _ => True) before opcode operand cx.bus).of_ok performs).1 bounded
    exact ⟨kept.elapsed, kept.samples⟩

theorem Moves.advances {cx : Context} {before after : Smp} {bus : Bus} {action : Action} (moves : before.Moves cx after bus action) :
    before.workload.Advances (pace (cx.scheduler.rate .cpu)) cx.scheduler.mode (cx.scheduler.time cx.thread) after.workload action := by
  cases moves with
  | stop idle =>
    have idle : before.workload = .idle := by rw [workload, idle, Continuation.workload]
    exact .stop idle idle
  | pass idle =>
    rw [workload, idle]
    exact before.fetch_advances _ _ _
  | step opcode operand cycles executing =>
    rw [workload, executing]
    exact execute_advances _ _ _ opcode operand cycles
  | ask opcode operand accessing normal level =>
    rw [workload, accessing]
    exact .resume normal level Nat.one_lt_two rfl (Nat.le_refl 0)
  | complete opcode operand synchronized accessing behind performs defers =>
    rw [workload, accessing]
    refine Workload.advances_of_defers defers (Int.le_refl _) ?_ rfl (Nat.le_refl 0)
    cases synchronized with
    | false => exact Nat.two_pos
    | true => exact Nat.one_pos

theorem slice_turns (smp : Smp) (cx : Context) :
    Meets (Excused (Prepared cx smp.Bounded) cx.Calm) (Turns cx (pace (cx.scheduler.rate .cpu)) Bounded workload smp)
      (Chip.slice smp cx) := by
  refine (smp.slice_moves cx).mono ?_
  rintro result ⟨action, does, moves⟩
  exact ⟨action, does, moves.advances, moves.bounded⟩

end Smp

namespace Ppu

/-- The last line that is started. A snapshot may hold a line past the end of the frame. -/
def lastLine : Loads → Nat
  | .own => 261
  | .any => 262

/-- The line, which has advanced already when its last dot is done. -/
def Bounded (loads : Loads) (ppu : Ppu) : Prop :=
  match ppu.continuation with
  | .idle | .line _ => ppu.line.toNat ≤ lastLine loads
  | .frame | .endOfLine => ppu.line.toNat ≤ lastLine loads + 1

def Continuation.workload : Continuation → Workload
  | idle => .idle
  | line dot => ⟨(348 - dot) / 8 + 2, 4 * (341 - dot), 1⟩
  | frame => ⟨2, 0, 1⟩
  | endOfLine => ⟨1, 0, 0⟩

def workload (ppu : Ppu) : Workload := ppu.continuation.workload

def pace : Workload.Pace := .prompt Workload.frameUnits Workload.frameUnits

theorem workload_slices (ppu : Ppu) : ppu.workload.slices = 0 ↔ Chip.atBoundary ppu = true := by
  cases at_work : ppu.continuation <;>
    simp [workload, Continuation.workload, at_work, Workload.idle, Chip.atBoundary]

theorem workload_le (ppu : Ppu) : ppu.workload.slices ≤ 300 ∧ ppu.workload.units ≤ 1364 ∧ ppu.workload.frames ≤ 1 := by
  unfold workload
  cases ppu.continuation with
  | line dot =>
    simp only [Continuation.workload]
    omega
  | idle | frame | endOfLine => exact ⟨by decide, by decide, by decide⟩

/-- What a slice makes of the registers, and the action that comes with it. The last slice of a line may be a short one. -/
inductive Moves (cx : Context) (before : Ppu) : Ppu → Action → Prop
  | stop (idle : before.continuation = .idle) : Moves cx before before .stop
  | pass (idle : before.continuation = .idle) : Moves cx before { before with continuation := .line 0 } .pass
  | dots (dot : Fin 341) (units : UInt32) (at_dot : before.continuation = .line dot) (more : dot + dotsPerSlice < 341)
      (spent : units.toNat = 4 * dotsPerSlice) :
      Moves cx before
        { before with
          picture := draw cx.bus before.line dotsPerSlice dot before.picture, continuation := .line ⟨dot + dotsPerSlice, more⟩ }
        (.step units)
  | last (dot : Fin 341) (units : UInt32) (line : UInt16) (at_dot : before.continuation = .line dot)
      (few : 341 ≤ dot + dotsPerSlice) (spent : units.toNat = 4 * (341 - dot)) (next : line.toNat = before.line.toNat + 1) :
      Moves cx before
        { before with
          line, picture := draw cx.bus before.line (341 - dot) dot before.picture
          continuation := if line = visibleLines then .frame else .endOfLine }
        (.step units)
  | frame (raised : before.continuation = .frame) :
      Moves cx before { before with frame := before.frame + 1, continuation := .endOfLine } .frame
  | wrap {action : Action} (ended : before.continuation = .endOfLine) (defers : cx.scheduler.Defers cx.thread (-1) action) :
      Moves cx before { before with line := if linesPerFrame ≤ before.line then 0 else before.line, continuation := .idle } action

/-- There is room to count the next line. -/
def Countable (ppu : Ppu) : Prop := ppu.line.toNat + 1 < 2 ^ 16

theorem endLine_meets {calm : Prop} (ppu : Ppu) :
    Meets (Excused ppu.Countable calm) (fun later => ∃ line : UInt16, line.toNat = ppu.line.toNat + 1 ∧
      later = { ppu with line, continuation := if line = visibleLines then .frame else .endOfLine }) ppu.endLine := by
  refine ((Checked.add16_meets ppu.line 1).permit ?_).bind fun line sum => .pure ⟨line, sum, rfl⟩
  rintro _ ⟨rfl, beyond⟩
  refine .unready (by simp) fun countable => ?_
  simp only [Countable, UInt16.reduceToNat] at beyond countable
  omega

theorem render_moves (ppu : Ppu) (dot : Fin 341) (cx : Context) (at_dot : ppu.continuation = .line dot) :
    Meets (Excused (Prepared cx ppu.Countable) cx.Calm)
      (fun result => result.2.bus = cx.bus ∧ ∃ action, cx.Does action result.2 ∧ ppu.Moves cx result.1 action) (ppu.render dot cx) := by
  obtain ⟨line, frame, picture, continuation⟩ := ppu
  cases at_dot
  have inside := dot.isLt
  have spent : (UInt32.ofNat (min dotsPerSlice (dotsPerLine - dot)) * dotUnits).toNat = 4 * min 8 (341 - dot.val) := by
    simp only [dotsPerSlice, dotsPerLine, dotUnits, UInt32.toNat_mul, UInt32.toNat_ofNat', UInt32.reduceToNat]
    omega
  simp only [render]
  refine ((cx.step_does _).permit (Excused.of_ready And.left)).returned.bind fun after called => ?_
  obtain ⟨stepped, does⟩ := called
  have same := Context.bus_step stepped
  split
  next more =>
    have full : min dotsPerSlice (dotsPerLine - dot) = dotsPerSlice := by
      simp only [dotsPerSlice, dotsPerLine] at more ⊢
      omega
    simp only [full] at more spent does ⊢
    exact .pure ⟨same, _, does, .dots dot _ rfl more (spent.trans (by simp only [dotsPerSlice] at more ⊢; omega))⟩
  next done =>
    have few : 341 ≤ dot + dotsPerSlice := by
      simp only [dotsPerSlice, dotsPerLine] at done ⊢
      omega
    have rest : min dotsPerSlice (dotsPerLine - dot) = 341 - dot := by
      simp only [dotsPerSlice, dotsPerLine] at few ⊢
      omega
    simp only [rest] at spent does ⊢
    refine ((endLine_meets _).permit (Excused.of_ready fun ready => ready.2.2)).bind ?_
    rintro later ⟨line, next, rfl⟩
    exact .pure ⟨same, _, does, .last dot _ line rfl few (spent.trans (by simp only [dotsPerSlice] at few; omega)) next⟩

theorem slice_moves (ppu : Ppu) (cx : Context) :
    Meets (Excused (Prepared cx ppu.Countable) cx.Calm)
      (fun result => result.2.bus = cx.bus ∧ ∃ action, cx.Does action result.2 ∧ ppu.Moves cx result.1 action) (Chip.slice ppu cx) := by
  simp only [Chip.slice, slice]
  cases at_work : ppu.continuation with
  | idle =>
    refine (cx.synchronizePoint_does.permit (Excused.of_ready And.left)).returned.bind ?_
    rintro ⟨passes, after⟩ ⟨point, does⟩
    have same := Context.bus_synchronizePoint point
    cases passes with
    | true => exact .pure ⟨same, _, does, .pass at_work⟩
    | false => exact .pure ⟨same, _, does, .stop at_work⟩
  | line dot => exact ppu.render_moves dot cx at_work
  | frame =>
    refine (cx.leave_does.permit (Excused.of_ready And.left)).returned.bind fun after called => ?_
    exact .pure ⟨Context.bus_leave called.1, _, called.2, .frame at_work⟩
  | endOfLine =>
    refine (cx.synchronizeCpu_handsOver.permit (Excused.of_ready fun ready => ⟨ready.1, ready.2.1⟩)).returned.bind ?_
    rintro ⟨resumed, after⟩ ⟨called, hands⟩
    obtain ⟨action, does, defers⟩ := hands.defers
    exact .pure ⟨Context.bus_synchronizeCpu called, _, does, .wrap at_work defers⟩

theorem lastLine_bounds (loads : Loads) : 261 ≤ lastLine loads ∧ lastLine loads ≤ 262 := by cases loads <;> decide

theorem Bounded.countable {ppu : Ppu} (bounded : ppu.Bounded loads) : ppu.Countable := by
  have last := (lastLine_bounds loads).2
  unfold Countable
  unfold Bounded at bounded
  split at bounded <;> omega

theorem Moves.bounded {cx : Context} {before after : Ppu} {action : Action} (moves : before.Moves cx after action)
    (bounded : before.Bounded loads) : after.Bounded loads := by
  cases moves with
  | stop => exact bounded
  | pass working | dots _ _ working | frame working =>
    simp only [Bounded, working] at bounded
    exact bounded
  | last dot units line at_dot few spent next =>
    simp only [Bounded, at_dot] at bounded
    have within : line.toNat ≤ lastLine loads + 1 := by omega
    by_cases last : line = visibleLines
    · simp only [Bounded, if_pos last]
      exact within
    · simp only [Bounded, if_neg last]
      exact within
  | wrap ended =>
    have visible := (lastLine_bounds loads).1
    simp only [Bounded]
    split
    next => exact Nat.zero_le _
    next within =>
      have within := mt UInt16.le_iff_toNat_le.mpr within
      simp only [linesPerFrame, UInt16.reduceToNat] at within
      omega

theorem Moves.advances {cx : Context} {before after : Ppu} {action : Action} (moves : before.Moves cx after action) :
    before.workload.Advances pace cx.scheduler.mode (cx.scheduler.time cx.thread) after.workload action := by
  cases moves with
  | stop idle =>
    have idle : before.workload = .idle := by rw [workload, idle, Continuation.workload]
    exact .stop idle idle
  | pass idle =>
    rw [workload, idle]
    change Workload.idle.Advances pace cx.scheduler.mode (cx.scheduler.time cx.thread) ⟨45, 1364, 1⟩ .pass
    exact .pass rfl (by decide) (by decide) (by decide) (by decide) (by decide)
  | dots dot units at_dot more spent =>
    simp only [dotsPerSlice] at more spent
    rw [workload, at_dot]
    refine .step ?_ ?_ (Nat.le_refl 1) (Nat.succ_pos _) <;> simp only [workload, Continuation.workload, dotsPerSlice]
    · omega
    · omega
  | last dot units line at_dot few spent next =>
    have inside := dot.isLt
    simp only [dotsPerSlice] at few
    have ended : (if line = visibleLines then Continuation.frame else .endOfLine) = .frame ∨
        (if line = visibleLines then Continuation.frame else .endOfLine) = .endOfLine := by
      split
      · exact .inl rfl
      · exact .inr rfl
    rw [workload, at_dot]
    refine .step ?_ ?_ ?_ ?_ <;> simp only [workload] <;> rcases ended with ended | ended <;>
      simp only [ended, Continuation.workload] <;> omega
  | frame raised =>
    rw [workload, raised]
    exact .frame Nat.one_lt_two rfl rfl Nat.one_pos
  | wrap ended defers =>
    rw [workload, ended]
    exact Workload.advances_of_defers defers (by decide) Nat.one_pos rfl (Nat.le_refl 0)

theorem slice_turns (loads : Loads) (ppu : Ppu) (cx : Context) :
    Meets (Excused (Prepared cx (ppu.Bounded loads)) cx.Calm) (Turns cx pace (Bounded loads) workload ppu) (Chip.slice ppu cx) := by
  refine ((ppu.slice_moves cx).permit (Excused.of_ready fun ready => ⟨ready.1, ready.2.1, ready.2.2.countable⟩)).mono ?_
  rintro result ⟨_, action, does, moves⟩
  exact ⟨action, does, moves.advances, moves.bounded⟩

end Ppu

namespace Multiplier

def Continuation.workload : Continuation → Workload
  | idle => .idle
  | waited => ⟨1, 0, 0⟩
  | busy remaining => ⟨max remaining.toNat 1 + 1, max remaining.toNat 1, 0⟩
  | complete => ⟨1, 0, 0⟩

def workload (unit : Multiplier) : Workload := unit.continuation.workload

def pace : Workload.Pace := .prompt latency.toNat idleCycles.toNat

theorem workload_slices (unit : Multiplier) : unit.workload.slices = 0 ↔ Chip.atBoundary unit = true := by
  cases at_work : unit.continuation <;>
    simp [workload, Continuation.workload, at_work, Workload.idle, Chip.atBoundary]

theorem workload_le (unit : Multiplier) : unit.workload.slices ≤ 256 ∧ unit.workload.units ≤ 255 := by
  unfold workload
  cases unit.continuation with
  | busy remaining =>
    have short := remaining.toNat_lt
    simp only [Continuation.workload]
    omega
  | idle | waited | complete => exact ⟨by decide, by decide⟩

theorem busy_advances (pace : Workload.Pace) (mode : Scheduler.Mode) (time : Int) (remaining : UInt8) :
    (Continuation.busy remaining).workload.Advances pace mode time
      (if 1 < remaining then Continuation.busy (remaining - 1) else .complete).workload (.step 1) := by
  by_cases several : 1 < remaining
  · obtain ⟨more, fewer⟩ := counted_down several
    rw [if_pos several]
    refine .step ?_ ?_ (Nat.le_refl 0) ?_ <;> simp only [Continuation.workload, fewer]
    · omega
    · simp only [UInt32.reduceToNat]
      omega
    · omega
  · have last : remaining.toNat ≤ 1 := UInt8.le_iff_toNat_le.mp (UInt8.not_lt.mp several)
    rw [if_neg several]
    refine .step ?_ ?_ (Nat.le_refl 0) Nat.one_pos <;> simp only [Continuation.workload]
    · omega
    · rw [Nat.max_eq_right last]
      rfl

theorem slice_turns (index : UInt8) (unit : Multiplier) (cx : Context) :
    Meets (Excused (Prepared cx (unit.index = index)) cx.Calm) (Turns cx pace (·.index = index) workload unit) (Chip.slice unit cx) := by
  simp only [Chip.slice, slice]
  cases at_work : unit.continuation with
  | idle =>
    have idle : unit.workload = .idle := by rw [workload, at_work, Continuation.workload]
    refine (cx.synchronizePoint_does.permit (Excused.of_ready And.left)).bind ?_
    rintro ⟨passes, after⟩ does
    cases passes with
    | false => exact .pure ⟨_, does, .stop idle idle, id⟩
    | true =>
      simp only [Bool.not_true, Bool.false_eq_true, if_false]
      split
      next latch pending =>
        refine .pure ⟨.pass, ?_, ?_, id⟩
        · exact (Context.Does.report does (by simp)).withBus (by simp [Context.report])
        · rw [idle]
          change Workload.idle.Advances pace cx.scheduler.mode (cx.scheduler.time cx.thread) ⟨9, 8, 0⟩ .pass
          exact .pass rfl (by decide) (by decide) (by decide) (by decide) (by decide)
      next =>
        refine ((after.step_does idleCycles).permit (Excused.of_calmer (fun ready => does.ready ready.1) fun _ => does.still_calm)).bind ?_
        intro last stepped
        refine .pure ⟨_, does.step_after_pass stepped, ?_, id⟩
        rw [idle]
        change Workload.idle.Advances pace cx.scheduler.mode (cx.scheduler.time cx.thread) ⟨1, 0, 0⟩ (.passStep idleCycles)
        exact .passStep rfl (by decide) (by decide) (by decide) rfl rfl Nat.one_pos (by decide)
  | waited =>
    refine (cx.synchronizeCpu_handsOver.permit (Excused.of_ready fun ready => ⟨ready.1, ready.2.1⟩)).bind ?_
    rintro ⟨resumed, after⟩ hands
    obtain ⟨action, does, advances⟩ : ∃ action, cx.Does action after ∧
        Continuation.waited.workload.Advances pace cx.scheduler.mode (cx.scheduler.time cx.thread) .idle action :=
      Workload.advances_of_handsOver hands (by decide) Nat.one_pos rfl (Nat.le_refl 0)
    refine .pure ⟨action, does, ?_, id⟩
    rw [workload, at_work]
    exact advances
  | busy remaining =>
    refine ((cx.step_does 1).permit (Excused.of_ready And.left)).bind fun after does => ?_
    refine .pure ⟨_, does, ?_, id⟩
    rw [workload, at_work]
    exact busy_advances _ cx.scheduler.mode _ remaining
  | complete =>
    let bus := cx.bus.modifyCoprocessor unit.index.toNat fun latch => { latch with output := result unit.operands }
    have latches : bus.coprocessors.size = cx.bus.coprocessors.size := by simp [bus]
    have handing := @Context.synchronizeCpu_handsOver cx.Calm { cx with bus }
    refine (handing.permit (Excused.of_ready fun ready => ⟨ready.1, ready.2.1⟩)).bind ?_
    rintro ⟨resumed, after⟩ hands
    obtain ⟨action, does, advances⟩ : ∃ action, Context.Does { cx with bus } action after ∧
        Continuation.complete.workload.Advances pace cx.scheduler.mode (cx.scheduler.time cx.thread) .idle action :=
      Workload.advances_of_handsOver hands (by decide) Nat.one_pos rfl (Nat.le_refl 0)
    refine .pure ⟨action, does.afterBus latches, ?_, id⟩
    rw [workload, at_work]
    exact advances

end Multiplier

namespace Rtc

structure Fits (index : UInt8) (clock : Rtc) : Prop where
  index : clock.index = index
  ticks : clock.ticks.toUInt32 < frequency

def workload (clock : Rtc) : Workload := if clock.ticked then ⟨1, 0, 0⟩ else .idle

def pace : Workload.Pace := .prompt 1 1

theorem workload_slices (clock : Rtc) : clock.workload.slices = 0 ↔ Chip.atBoundary clock = true := by
  cases at_work : clock.ticked <;> simp [workload, at_work, Workload.idle, Chip.atBoundary]

theorem tick_meets {calm : Prop} (index : UInt8) (clock : Rtc) :
    Meets (Excused (clock.Fits index) calm) (fun later => clock.Fits index → later.Fits index) clock.tick := by
  refine ((Checked.add16_meets clock.ticks 1).permit ?_).bind fun ticks sum => ?_
  · rintro _ ⟨rfl, beyond⟩
    refine .unready (by simp) fun fits => ?_
    have within := UInt32.lt_iff_toNat_lt.mp fits.ticks
    simp only [frequency, UInt16.toNat_toUInt32, UInt32.reduceToNat, UInt16.reduceToNat] at within beyond
    omega
  · split
    next => exact .pure fun fits => ⟨fits.index, by simp only; decide⟩
    next below => exact .pure fun fits => ⟨fits.index, UInt32.not_le.mp below⟩

theorem obey_fits {index : UInt8} {clock : Rtc} (fits : clock.Fits index) (latch : Latch) :
    (clock.obey latch).Fits index := by
  unfold obey
  split
  next => exact ⟨fits.index, by simp only; decide⟩
  next => exact fits

theorem slice_turns (index : UInt8) (clock : Rtc) (cx : Context) :
    Meets (Excused (Prepared cx (clock.Fits index)) cx.Calm) (Turns cx pace (Fits index) workload clock) (Chip.slice clock cx) := by
  simp only [Chip.slice, slice]
  cases at_work : clock.ticked with
  | true =>
    refine (cx.synchronizeCpu_handsOver.permit (Excused.of_ready fun ready => ⟨ready.1, ready.2.1⟩)).bind ?_
    rintro ⟨resumed, after⟩ hands
    obtain ⟨action, does, advances⟩ : ∃ action, cx.Does action after ∧
        (⟨1, 0, 0⟩ : Workload).Advances pace cx.scheduler.mode (cx.scheduler.time cx.thread) .idle action :=
      Workload.advances_of_handsOver hands (by decide) Nat.one_pos rfl (Nat.le_refl 0)
    refine .pure ⟨action, does, ?_, fun fits => ⟨fits.index, fits.ticks⟩⟩
    rw [workload, at_work]
    exact advances
  | false =>
    have idle : clock.workload = .idle := by rw [workload, at_work]; rfl
    simp only [Bool.false_eq_true, if_false]
    refine (cx.synchronizePoint_does.permit (Excused.of_ready And.left)).bind ?_
    rintro ⟨passes, after⟩ does
    cases passes with
    | false => exact .pure ⟨_, does, .stop idle idle, id⟩
    | true =>
      simp only [Bool.not_true, Bool.false_eq_true, if_false]
      refine ((after.step_does 1).permit (Excused.of_calmer (fun ready => does.ready ready.1) fun _ => does.still_calm)).bind fun last stepped => ?_
      refine ((clock.tick_meets index).permit (Excused.of_ready fun ready => ready.2.2)).bind fun later fits => ?_
      have worked : ∀ final : Rtc, final.ticked = true →
          clock.workload.Advances pace cx.scheduler.mode (cx.scheduler.time cx.thread) final.workload (.passStep 1) := by
        intro final ticked
        rw [idle, workload, ticked]
        exact .passStep rfl (by decide) (by decide) (by decide) rfl rfl Nat.one_pos (by decide)
      split
      next =>
        refine .pure ⟨_, does.step_after_pass stepped, worked _ rfl, fun before => ?_⟩
        exact ⟨(fits before).index, (fits before).ticks⟩
      next latch _ =>
        refine .pure ⟨_, (does.step_after_pass stepped).withBus (by simp), worked _ rfl, fun before => ?_⟩
        have obeyed := obey_fits (fits before) latch
        exact ⟨obeyed.index, obeyed.ticks⟩

end Rtc

namespace Coprocessor

/-- A coprocessor of a kind at a latch, with its registers within their bounds. -/
def Fits (kind : CoprocessorKind) (index : UInt8) : Coprocessor → Prop
  | multiplier unit => kind = .multiplier ∧ unit.index = index
  | rtc clock => kind = .rtc ∧ clock.Fits index

def workload : Coprocessor → Workload
  | multiplier unit => unit.workload
  | rtc clock => clock.workload

def pace : Coprocessor → Workload.Pace
  | multiplier _ => Multiplier.pace
  | rtc _ => Rtc.pace

theorem workload_slices (chip : Coprocessor) : chip.workload.slices = 0 ↔ Chip.atBoundary chip = true := by
  cases chip with
  | multiplier unit => exact unit.workload_slices
  | rtc clock => exact clock.workload_slices

theorem workload_le (chip : Coprocessor) : chip.workload.slices ≤ 256 ∧ chip.workload.units ≤ 255 := by
  cases chip with
  | multiplier unit => exact unit.workload_le
  | rtc clock =>
    simp only [workload, Rtc.workload]
    split <;> exact ⟨by decide, by decide⟩

theorem slice_turns (kind : CoprocessorKind) (index : UInt8) (chip : Coprocessor) (cx : Context) :
    Meets (Excused (Prepared cx (chip.Fits kind index)) cx.Calm) (Turns cx chip.pace (Fits kind index) workload chip) (Chip.slice chip cx) := by
  cases chip with
  | multiplier unit =>
    have turns := (unit.slice_turns index cx).permit
      (Excused.of_ready fun ready : Prepared cx (Fits kind index (multiplier unit)) => ⟨ready.1, ready.2.1, ready.2.2.2⟩)
    refine turns.bind ?_
    rintro ⟨later, after⟩ ⟨action, does, advances, kept⟩
    exact .pure ⟨action, does, advances, fun fits => ⟨fits.1, kept fits.2⟩⟩
  | rtc clock =>
    have turns := (clock.slice_turns index cx).permit
      (Excused.of_ready fun ready : Prepared cx (Fits kind index (rtc clock)) => ⟨ready.1, ready.2.1, ready.2.2.2⟩)
    refine turns.bind ?_
    rintro ⟨later, after⟩ ⟨action, does, advances, kept⟩
    exact .pure ⟨action, does, advances, fun fits => ⟨fits.1, kept fits.2⟩⟩

end Coprocessor
end MultiClock
