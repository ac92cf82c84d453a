import MultiClock.Proofs.Courses
import MultiClock.Proofs.CpuTurns
import MultiClock.Proofs.ExactClocks

/-! Instructions of the reference processor are atomic. An instruction takes several slices, and the bus and the other chips may
become anything between two of them, but its effect takes place in one slice, after all of its cycles are spent. -/

namespace MultiClock

/-- Clock units of its own domain that the slice steps. -/
def Episode.units (episode : Episode χ) : Nat :=
  unitsOf episode.given.thread episode.left.notices - unitsOf episode.given.thread episode.given.notices

theorem Episode.units_of_does {episode : Episode χ} {action : Action} (does : episode.given.Does action episode.left) :
    episode.units = action.units := by
  rw [units, does.units, if_pos rfl, Nat.add_sub_cancel_left]

namespace Cpu

/-- How a slice gets on with an instruction, and what becomes of the bus. -/
inductive Proceeds (cx : Context) (before : Cpu) : Cpu → Bus → Action → Prop
  | stop (idle : before.continuation = .idle) : Proceeds cx before before cx.bus .stop
  | fetch (idle : before.continuation = .idle) : Proceeds cx before (before.fetch cx.bus) cx.bus .pass
  | step (opcode : Opcode) (operand cycles : UInt8) (executing : before.continuation = .execute opcode operand cycles)
      (catchupUnits : UInt32) (sum : catchupUnits.toNat = before.catchupUnits.toNat + 8) :
      Proceeds cx before
        { before with
          catchupUnits
          continuation := if 1 < cycles then .execute opcode operand (cycles - 1) else .access opcode operand false }
        cx.bus (.step cycleUnits)
  | ask (opcode : Opcode) (operand : UInt8) (other : ThreadId) (accessing : before.continuation = .access opcode operand false)
      (accessed : before.accessed opcode operand = some other) (behind : cx.scheduler.time other < 0) :
      Proceeds cx before { before with continuation := .access opcode operand true } cx.bus (.resume other)
  | access (opcode : Opcode) (operand : UInt8) (synchronized : Bool)
      (accessing : before.continuation = .access opcode operand synchronized)
      (level : synchronized = false → ∀ other, before.accessed opcode operand = some other → 0 ≤ cx.scheduler.time other) :
      Proceeds cx before (before.complete opcode operand cx).1 (before.perform opcode operand cx.bus).2 .rest
  | call (next later : UInt8) (level : List ThreadId) (other : ThreadId) (rest : List ThreadId)
      (catching : before.continuation = .catchup next)
      (remaining : before.dependents.drop next.toNat = level ++ other :: rest) (caught : ∀ id ∈ level, 0 ≤ cx.scheduler.time id)
      (behind : cx.scheduler.time other < 0) (left : before.dependents.drop later.toNat = rest) :
      Proceeds cx before { before with continuation := .catchup later } cx.bus (.resume other)
  | caughtUp (next : UInt8) (catching : before.continuation = .catchup next)
      (caught : ∀ id ∈ before.dependents.drop next.toNat, 0 ≤ cx.scheduler.time id) :
      Proceeds cx before { before with continuation := .idle } cx.bus .rest

theorem bus_catchUp {cpu later : Cpu} {next : UInt8} {remaining : List ThreadId} {cx after : Context}
    (called : cpu.catchUp next remaining cx = .ok (later, after)) : after.bus = cx.bus := by
  induction remaining generalizing next cx with
  | nil =>
    cases called
    rfl
  | cons dependent rest ih =>
    obtain ⟨following, _, called⟩ := Except.bind_eq_ok called
    obtain ⟨⟨resumed, middle⟩, asked, called⟩ := Except.bind_eq_ok called
    have same := Context.bus_synchronize asked
    cases resumed with
    | true =>
      cases called
      exact same
    | false => exact (ih called).trans same

theorem complete_does (cpu : Cpu) (opcode : Opcode) (operand : UInt8) (cx : Context) :
    cx.Does .rest (cpu.complete opcode operand cx).2 :=
  (Context.Does.rest cx).withBus (cpu.perform_keeps opcode operand cx.bus).2.2

theorem slice_proceeds (cpu : Cpu) (cx : Context) :
    Meets (fun _ => True)
      (fun result => ∃ action bus, cx.Does action result.2 ∧ cpu.Proceeds cx result.1 bus action ∧ result.2.bus = bus)
      (Chip.slice cpu cx) := by
  simp only [Chip.slice, slice]
  cases at_work : cpu.continuation with
  | idle =>
    refine (((@Context.synchronizePoint_does True cx).permit fun _ _ => trivial).returned).bind ?_
    rintro ⟨passes, after⟩ ⟨point, does⟩
    have same := Context.bus_synchronizePoint point
    cases passes with
    | false => exact .pure ⟨_, _, does, .stop at_work, same⟩
    | true =>
      have fetched : cpu.Proceeds cx (cpu.fetch after.bus) cx.bus .pass := by
        rw [show after.bus = cx.bus from same]
        exact .fetch at_work
      exact .pure ⟨_, _, does, fetched, same⟩
  | execute opcode operand cycles =>
    refine (((cx.step_does cycleUnits).permit fun _ _ => trivial).returned).bind ?_
    rintro after ⟨stepped, does⟩
    refine ((Checked.add32_meets cpu.catchupUnits cycleUnits).permit fun _ _ => trivial).bind fun units sum => ?_
    exact .pure ⟨_, _, does, .step opcode operand cycles at_work units sum, Context.bus_step stepped⟩
  | access opcode operand synchronized =>
    simp only
    split
    next untouched =>
      refine .pure ⟨_, _, cpu.complete_does opcode operand cx, .access opcode operand synchronized at_work ?_, rfl⟩
      intro fresh other accessed
      rw [if_neg (Bool.eq_false_iff.mp fresh), accessed] at untouched
      cases untouched
    next other accessed =>
      have unsynchronized : synchronized = false := by
        cases synchronized <;> simp at accessed ⊢
      cases unsynchronized
      have accessed : cpu.accessed opcode operand = some other := accessed
      refine (((@Context.synchronize_asks True cx other).permit fun _ _ => trivial).returned).bind ?_
      rintro ⟨resumed, after⟩ ⟨called, ⟨rfl, does⟩ | ⟨rfl, same⟩, behind⟩
      · exact .pure ⟨_, _, does, .ask opcode operand other at_work accessed (behind.mp rfl), Context.bus_synchronize called⟩
      · simp only at same ⊢
        rw [same]
        refine .pure ⟨_, _, cpu.complete_does opcode operand cx, .access opcode operand false at_work fun _ touched same => ?_, rfl⟩
        cases accessed.symm.trans same
        exact Int.not_lt.mp (mt behind.mpr Bool.false_ne_true)
  | catchup next =>
    refine (((@catchUp_meets True .any cpu.coprocessors cpu cx _ next rfl).permit fun _ _ => trivial).returned).mono ?_
    rintro ⟨later, after⟩ ⟨called, ⟨level, other, rest, position, remaining, caught, behind, left, rfl, does⟩ | ⟨rfl, same, caught⟩⟩
    · exact ⟨_, _, does, .call next position level other rest at_work remaining caught behind left, bus_catchUp called⟩
    · rw [show after = cx from same]
      exact ⟨_, _, .rest cx, .caughtUp next at_work caught, rfl⟩

theorem happens_proceeds {episode : Episode Cpu} (happens : episode.Happens) :
    ∃ action, episode.given.Does action episode.left ∧ episode.before.Proceeds episode.given episode.after episode.left.bus action := by
  obtain ⟨action, _, does, proceeds, rfl⟩ := (episode.before.slice_proceeds episode.given).of_ok happens
  exact ⟨action, does, proceeds⟩

/-! What becomes of each continuation. -/

section continuations
variable {cx : Context} {before after : Cpu} {bus : Bus} {action : Action} {opcode : Opcode} {operand cycles next : UInt8}
  {synchronized : Bool} (proceeds : before.Proceeds cx after bus action)
include proceeds

theorem Proceeds.of_idle (idle : before.continuation = .idle) :
    bus = cx.bus ∧ (action = .stop ∧ after = before ∨ action = .pass ∧ after = before.fetch cx.bus) := by
  cases proceeds with
  | stop => exact ⟨rfl, .inl ⟨rfl, rfl⟩⟩
  | fetch => exact ⟨rfl, .inr ⟨rfl, rfl⟩⟩
  | step _ _ _ executing => cases idle.symm.trans executing
  | ask _ _ _ accessing | access _ _ _ accessing => cases idle.symm.trans accessing
  | call _ _ _ _ _ catching | caughtUp _ catching => cases idle.symm.trans catching

theorem Proceeds.of_execute (executing : before.continuation = .execute opcode operand cycles) :
    action = .step cycleUnits ∧ bus = cx.bus ∧
      after = { before with
        catchupUnits := after.catchupUnits
        continuation := if 1 < cycles then .execute opcode operand (cycles - 1) else .access opcode operand false } ∧
      after.catchupUnits.toNat = before.catchupUnits.toNat + 8 := by
  cases proceeds with
  | stop idle | fetch idle => cases executing.symm.trans idle
  | ask _ _ _ accessing | access _ _ _ accessing => cases executing.symm.trans accessing
  | call _ _ _ _ _ catching | caughtUp _ catching => cases executing.symm.trans catching
  | step opcode operand cycles at_work catchupUnits sum =>
    cases executing.symm.trans at_work
    exact ⟨rfl, rfl, rfl, sum⟩

theorem Proceeds.of_access (accessing : before.continuation = .access opcode operand synchronized) :
    (action = .rest ∧ after = (before.complete opcode operand cx).1 ∧ bus = (before.perform opcode operand cx.bus).2 ∧
        (synchronized = false → ∀ other, before.accessed opcode operand = some other → 0 ≤ cx.scheduler.time other)) ∨
      synchronized = false ∧ ∃ other, before.accessed opcode operand = some other ∧ cx.scheduler.time other < 0 ∧
        action = .resume other ∧ after = { before with continuation := .access opcode operand true } ∧ bus = cx.bus := by
  cases proceeds with
  | stop idle | fetch idle => cases accessing.symm.trans idle
  | step _ _ _ executing => cases accessing.symm.trans executing
  | call _ _ _ _ _ catching | caughtUp _ catching => cases accessing.symm.trans catching
  | access opcode operand synchronized at_work level =>
    cases accessing.symm.trans at_work
    exact .inl ⟨rfl, rfl, rfl, level⟩
  | ask opcode operand other at_work accessed behind =>
    cases accessing.symm.trans at_work
    exact .inr ⟨rfl, other, accessed, behind, rfl, rfl, rfl⟩

theorem Proceeds.of_catchup (catching : before.continuation = .catchup next) :
    bus = cx.bus ∧
      ((∃ position level other, before.dependents.drop next.toNat = level ++ other :: before.dependents.drop (UInt8.toNat position) ∧
          (∀ id ∈ level, 0 ≤ cx.scheduler.time id) ∧ cx.scheduler.time other < 0 ∧ action = .resume other ∧
          after = { before with continuation := .catchup position }) ∨
        (∀ id ∈ before.dependents.drop next.toNat, 0 ≤ cx.scheduler.time id) ∧ action = .rest ∧
          after = { before with continuation := .idle }) := by
  cases proceeds with
  | stop idle | fetch idle => cases catching.symm.trans idle
  | step _ _ _ executing => cases catching.symm.trans executing
  | ask _ _ _ accessing | access _ _ _ accessing => cases catching.symm.trans accessing
  | call here position level other rest at_work remaining caught behind passed =>
    cases catching.symm.trans at_work
    exact ⟨rfl, .inl ⟨position, level, other, passed ▸ remaining, caught, behind, rfl, rfl⟩⟩
  | caughtUp here at_work caught =>
    cases catching.symm.trans at_work
    exact ⟨rfl, .inr ⟨caught, rfl, rfl⟩⟩

end continuations

/-- A slice that goes on with an instruction and leaves its effect to another one. -/
structure Waits (episode : Episode Cpu) : Prop where
  bus : episode.left.bus = episode.given.bus
  a : episode.after.a = episode.before.a
  x : episode.after.x = episode.before.x
  instructions : episode.after.instructions = episode.before.instructions

/-- The course of the reference while it is at work, up to where it is idle. -/
structure Work (cpu : Cpu) (episodes : List (Episode Cpu)) (later : Cpu) : Prop where
  course : Course cpu episodes later
  busy : ∀ episode ∈ episodes, episode.before.continuation ≠ .idle
  idle : later.continuation = .idle

/-- Work that is not done yet goes on with a slice. -/
theorem Work.next {cpu later : Cpu} {episodes : List (Episode Cpu)} (work : Work cpu episodes later) (busy : cpu.continuation ≠ .idle) :
    ∃ episode rest action, episodes = episode :: rest ∧ episode.before = cpu ∧ episode.given.Does action episode.left ∧
      episode.before.Proceeds episode.given episode.after episode.left.bus action ∧ Work episode.after rest later := by
  obtain ⟨course, all, idle⟩ := work
  cases course with
  | rest => exact absurd idle busy
  | slice happens more =>
    obtain ⟨action, does, proceeds⟩ := happens_proceeds happens
    exact ⟨_, _, action, rfl, rfl, does, proceeds, more, fun episode member => all episode (List.mem_cons_of_mem _ member), idle⟩

theorem Work.finished {cpu later : Cpu} {episodes : List (Episode Cpu)} (work : Work cpu episodes later)
    (idle : cpu.continuation = .idle) : episodes = [] ∧ later = cpu := by
  obtain ⟨course, busy, _⟩ := work
  cases course with
  | rest => exact ⟨rfl, rfl⟩
  | slice => exact absurd idle (busy _ List.mem_cons_self)

/-- The slices that spend the cycles of an instruction. -/
theorem Work.steps {cpu later : Cpu} {episodes : List (Episode Cpu)} {opcode : Opcode} {operand cycles : UInt8}
    (work : Work cpu episodes later) (executing : cpu.continuation = .execute opcode operand cycles) :
    ∃ steps rest ready, episodes = steps ++ rest ∧ steps.length = max cycles.toNat 1 ∧
      (∀ episode ∈ steps, episode.units = cycleUnits.toNat ∧ episode.asked = none ∧ Waits episode) ∧
      ready = { cpu with catchupUnits := ready.catchupUnits, continuation := .access opcode operand false } ∧
      ready.catchupUnits.toNat = cpu.catchupUnits.toNat + max cycles.toNat 1 * cycleUnits.toNat ∧ Work ready rest later := by
  -- On the slices and not on the cycles, since a count of zero takes a slice as well.
  induction episodes generalizing cpu cycles with
  | nil =>
    obtain ⟨_, _, _, impossible, _⟩ := work.next (by simp [executing])
    cases impossible
  | cons episode episodes ih =>
    obtain ⟨_, _, action, listed, rfl, does, proceeds, more⟩ := work.next (by simp [executing])
    cases listed
    obtain ⟨rfl, bus, spent, sum⟩ := proceeds.of_execute executing
    have step : episode.units = cycleUnits.toNat ∧ episode.asked = none ∧ Waits episode := by
      refine ⟨Episode.units_of_does does, Episode.asked_of_does does, bus, ?_, ?_, ?_⟩ <;> rw [spent]
    simp only [cycleUnits, UInt32.reduceToNat] at step ih ⊢
    by_cases several : 1 < cycles
    · obtain ⟨more_cycles, fewer⟩ := counted_down several
      rw [if_pos several] at spent
      obtain ⟨steps, rest, ready, rfl, count, all, at_access, total, work⟩ := ih more (by rw [spent])
      refine ⟨episode :: steps, rest, ready, rfl, ?_, List.forall_mem_cons.mpr ⟨step, all⟩, ?_, ?_, work⟩
      · rw [List.length_cons, count, fewer]
        omega
      · rw [spent] at at_access
        exact at_access
      · rw [total, sum, fewer]
        omega
    · have last : cycles.toNat ≤ 1 := UInt8.le_iff_toNat_le.mp (UInt8.not_lt.mp several)
      rw [if_neg several] at spent
      refine ⟨[episode], episodes, episode.after, rfl, ?_, List.forall_mem_cons.mpr ⟨step, by simp⟩, spent, ?_, more⟩
      · rw [List.length_singleton]
        omega
      · rw [sum]
        omega

/-- Making dependents catch up. Each one is visited once, in order, and control is handed to it if it is behind when it is visited. -/
inductive CatchesUp : List ThreadId → List (Episode Cpu) → Prop
  | done {remaining : List ThreadId} {episode : Episode Cpu} (level : ∀ id ∈ remaining, 0 ≤ episode.given.scheduler.time id)
      (silent : episode.asked = none) : CatchesUp remaining [episode]
  | call {level rest : List ThreadId} {other : ThreadId} {episode : Episode Cpu} {episodes : List (Episode Cpu)}
      (caught : ∀ id ∈ level, 0 ≤ episode.given.scheduler.time id) (behind : episode.given.scheduler.time other < 0)
      (asked : episode.asked = some (.resume other)) (more : CatchesUp rest episodes) :
      CatchesUp (level ++ other :: rest) (episode :: episodes)

theorem Work.catchesUp {cpu later : Cpu} {episodes : List (Episode Cpu)} {next : UInt8} (work : Work cpu episodes later)
    (catching : cpu.continuation = .catchup next) :
    CatchesUp (cpu.dependents.drop next.toNat) episodes ∧ (∀ episode ∈ episodes, episode.units = 0 ∧ Waits episode) ∧
      later = { cpu with continuation := .idle } := by
  induction episodes generalizing cpu next with
  | nil =>
    obtain ⟨_, _, _, impossible, _⟩ := work.next (by simp [catching])
    cases impossible
  | cons episode episodes ih =>
    obtain ⟨_, _, action, listed, rfl, does, proceeds, more⟩ := work.next (by simp [catching])
    cases listed
    have units := Episode.units_of_does does
    have asked := Episode.asked_of_does does
    obtain ⟨bus, ⟨position, level, other, remaining, caught, behind, rfl, called⟩ | ⟨caught, rfl, done⟩⟩ := proceeds.of_catchup catching
    · have waits : Waits episode := by
        refine ⟨bus, ?_, ?_, ?_⟩ <;> rw [called]
      obtain ⟨round, rest, done⟩ := ih more (by rw [called])
      rw [called] at round done
      rw [remaining]
      exact ⟨.call caught behind asked round, List.forall_mem_cons.mpr ⟨⟨units, waits⟩, rest⟩, done⟩
    · have waits : Waits episode := by
        refine ⟨bus, ?_, ?_, ?_⟩ <;> rw [done]
      obtain ⟨rfl, rfl⟩ := more.finished (by rw [done])
      exact ⟨.done caught asked, List.forall_mem_cons.mpr ⟨⟨units, waits⟩, by simp⟩, done⟩

/-- The instructions change nothing but the accumulator, the index and the bus. -/
theorem perform_eq (cpu : Cpu) (opcode : Opcode) (operand : UInt8) (bus : Bus) :
    (cpu.perform opcode operand bus).1 =
      { cpu with a := (cpu.perform opcode operand bus).1.a, x := (cpu.perform opcode operand bus).1.x } := by
  cases opcode with
  | copWrite | copRead =>
    simp only [perform]
    split <;> rfl
  | _ => rfl

theorem complete_eq (cpu : Cpu) (opcode : Opcode) (operand : UInt8) (cx : Context) :
    (cpu.complete opcode operand cx).1 =
      { cpu with
        a := (cpu.perform opcode operand cx.bus).1.a
        x := (cpu.perform opcode operand cx.bus).1.x
        instructions := cpu.instructions + 1
        catchupUnits := if catchupThreshold ≤ cpu.catchupUnits then 0 else cpu.catchupUnits
        continuation := if catchupThreshold ≤ cpu.catchupUnits then .catchup 0 else .idle } := by
  have performed := cpu.perform_eq opcode operand cx.bus
  obtain ⟨bus, scheduler, thread, notices⟩ := cx
  simp only [complete] at performed ⊢
  generalize cpu.perform opcode operand bus = outcome at performed ⊢
  obtain ⟨⟨a, x, pc, lfsr, catchupUnits, instructions, coprocessors, continuation⟩, written⟩ := outcome
  cases performed
  by_cases due : catchupThreshold ≤ cpu.catchupUnits
  · simp only [if_pos due]
  · simp only [if_neg due]

/-- What is left of an instruction once its cycles are spent and the chip that it touches has caught up: one slice with its effect, and
a round of the dependents if enough time has passed. -/
structure Effect (cpu : Cpu) (opcode : Opcode) (operand : UInt8) (access : Episode Cpu) (visits : List (Episode Cpu)) (later : Cpu) :
    Prop where
  quiet : access.units = 0 ∧ access.asked = none
  bus : access.left.bus = (cpu.perform opcode operand access.given.bus).2
  result : later =
    { cpu with
      a := (cpu.perform opcode operand access.given.bus).1.a
      x := (cpu.perform opcode operand access.given.bus).1.x
      instructions := cpu.instructions + 1
      catchupUnits := if catchupThreshold ≤ cpu.catchupUnits then 0 else cpu.catchupUnits
      continuation := .idle }
  round : if catchupThreshold ≤ cpu.catchupUnits then CatchesUp cpu.dependents visits else visits = []
  waits : ∀ episode ∈ visits, episode.units = 0 ∧ Waits episode

theorem Work.effect {cpu later : Cpu} {opcode : Opcode} {operand : UInt8} {access : Episode Cpu} {visits : List (Episode Cpu)}
    (more : Work access.after visits later) (completed : access.after = (cpu.complete opcode operand access.given).1)
    (does : access.given.Does .rest access.left) (bus : access.left.bus = (cpu.perform opcode operand access.given.bus).2) :
    Effect cpu opcode operand access visits later := by
  have quiet : access.units = 0 ∧ access.asked = none := ⟨Episode.units_of_does does, Episode.asked_of_does does⟩
  rw [completed, complete_eq] at more
  by_cases due : catchupThreshold ≤ cpu.catchupUnits
  · simp only [if_pos due] at more
    obtain ⟨round, waits, done⟩ := more.catchesUp rfl
    refine ⟨quiet, bus, ?_, ?_, waits⟩
    · rw [if_pos due]
      exact done
    · rw [if_pos due]
      exact round
  · simp only [if_neg due] at more
    obtain ⟨rfl, rfl⟩ := more.finished rfl
    refine ⟨quiet, bus, ?_, ?_, by simp⟩ <;> rw [if_neg due]

/-- Before its effect an instruction hands control over at most once: to the chip that it touches, if that one is behind. -/
inductive Asks (touched : Option ThreadId) (access : Episode Cpu) : List (Episode Cpu) → Prop
  | level (caught : ∀ other, touched = some other → 0 ≤ access.given.scheduler.time other) : Asks touched access []
  | behind {ask : Episode Cpu} {other : ThreadId} (touches : touched = some other) (behind : ask.given.scheduler.time other < 0)
      (asked : ask.asked = some (.resume other)) (units : ask.units = 0) (waits : Waits ask) : Asks touched access [ask]

/-- The slices of an instruction whose cycles are spent. -/
theorem Work.accesses {cpu later : Cpu} {episodes : List (Episode Cpu)} {opcode : Opcode} {operand : UInt8}
    (work : Work cpu episodes later) (accessing : cpu.continuation = .access opcode operand false) :
    ∃ asks access visits, episodes = asks ++ access :: visits ∧ Asks (cpu.accessed opcode operand) access asks ∧
      access.before = { cpu with continuation := .access opcode operand (!asks.isEmpty) } ∧
      Effect access.before opcode operand access visits later := by
  obtain ⟨first, rest, action, rfl, rfl, does, proceeds, more⟩ := work.next (by simp [accessing])
  obtain ⟨rfl, completed, bus, level⟩ | ⟨_, other, accessed, behind, rfl, asking, bus⟩ := proceeds.of_access accessing
  · refine ⟨[], first, rest, rfl, .level (level rfl), ?_, more.effect completed does bus⟩
    rw [List.isEmpty_nil, Bool.not_true, ← accessing]
  · have waits : Waits first := by
      refine ⟨bus, ?_, ?_, ?_⟩ <;> rw [asking]
    have units := Episode.units_of_does does
    have asked := Episode.asked_of_does does
    obtain ⟨access, visits, action, rfl, started, does, proceeds, more⟩ := more.next (by simp [asking])
    have accessing : access.before.continuation = .access opcode operand true := by rw [started, asking]
    obtain ⟨rfl, completed, bus, _⟩ | ⟨impossible, _⟩ := proceeds.of_access accessing
    · exact ⟨[first], access, visits, rfl, .behind accessed behind asked units waits, started.trans asking,
        more.effect completed does bus⟩
    · cases impossible

theorem cycles_pos (opcode : Opcode) (operand : UInt8) : 0 < (opcode.cycles operand).toNat := by
  have small : operand.toNat % 16 < 16 := Nat.mod_lt _ (by decide)
  cases opcode <;> simp only [Opcode.cycles, UInt8.reduceToNat, UInt8.toNat_add, UInt8.toNat_mod]
  all_goals omega

/-- An instruction between two idle states: the slice that passes the synchronization point, and all others up to the next one. -/
structure Executes (cpu : Cpu) (fetching : Episode Cpu) (rest : List (Episode Cpu)) (later : Cpu) : Prop where
  begins : fetching.before = cpu
  idle : cpu.continuation = .idle
  happens : fetching.Happens
  passes : fetching.after.continuation ≠ .idle
  work : Work fetching.after rest later

/-- What an instruction comes to. -/
structure Instruction (cpu : Cpu) (fetching : Episode Cpu) (opcode : Opcode) (operand : UInt8) (steps asks : List (Episode Cpu))
    (access : Episode Cpu) (visits : List (Episode Cpu)) (later : Cpu) : Prop where
  decoded : opcode = Opcode.decode (fetching.given.bus.readWram cpu.pc ^^^ (shifted cpu.lfsr).toUInt8)
  beside : operand = fetching.given.bus.readWram (cpu.pc + 1)
  fetched : fetching.units = 0 ∧ fetching.asked = none ∧ Waits fetching
  cycles : steps.length = (opcode.cycles operand).toNat
  stepping : ∀ episode ∈ steps, episode.units = cycleUnits.toNat ∧ episode.asked = none ∧ Waits episode
  asking : Asks (cpu.accessed opcode operand) access asks
  /-- Up to its effect nothing but the instruction happens to the registers. -/
  registers : access.before =
    { cpu with
      pc := cpu.pc + 2, lfsr := shifted cpu.lfsr, catchupUnits := access.before.catchupUnits
      continuation := .access opcode operand (!asks.isEmpty) }
  catchupUnits : access.before.catchupUnits.toNat = cpu.catchupUnits.toNat + (opcode.cycles operand).toNat * cycleUnits.toNat
  effect : Effect access.before opcode operand access visits later

theorem sum_units {episodes : List (Episode Cpu)} {units : Nat} (all : ∀ episode ∈ episodes, episode.units = units) :
    (episodes.map Episode.units).sum = episodes.length * units := by
  rw [List.map_congr_left all, List.map_const', List.sum_replicate_nat]

theorem Asks.units {touched : Option ThreadId} {access : Episode Cpu} {asks : List (Episode Cpu)} (asking : Asks touched access asks) :
    ∀ episode ∈ asks, episode.units = 0 := by
  cases asking with
  | level => simp
  | behind _ _ _ units => simpa using units

/-- The cycles of an instruction are all that its slices step. -/
theorem Instruction.units {cpu later : Cpu} {fetching access : Episode Cpu} {opcode : Opcode} {operand : UInt8}
    {steps asks visits : List (Episode Cpu)} (instruction : Instruction cpu fetching opcode operand steps asks access visits later) :
    ((fetching :: (steps ++ asks ++ access :: visits)).map Episode.units).sum = (opcode.cycles operand).toNat * cycleUnits.toNat := by
  simp only [List.map_cons, List.map_append, List.sum_cons, List.sum_append, instruction.fetched.1, instruction.effect.quiet.1,
    sum_units fun episode member => (instruction.stepping episode member).1, sum_units instruction.asking.units,
    sum_units fun episode member => (instruction.effect.waits episode member).1, instruction.cycles]
  omega

theorem Executes.instruction {cpu later : Cpu} {fetching : Episode Cpu} {rest : List (Episode Cpu)}
    (executes : Executes cpu fetching rest later) :
    ∃ opcode operand steps asks access visits, rest = steps ++ asks ++ access :: visits ∧
      Instruction cpu fetching opcode operand steps asks access visits later := by
  obtain ⟨rfl, idle, happens, passes, work⟩ := executes
  obtain ⟨action, does, proceeds⟩ := happens_proceeds happens
  obtain ⟨bus, ⟨rfl, stays⟩ | ⟨rfl, fetched⟩⟩ := proceeds.of_idle idle
  · exact absurd (stays ▸ idle) passes
  · have waits : Waits fetching := by
      refine ⟨bus, ?_, ?_, ?_⟩ <;> rw [fetched] <;> rfl
    rw [fetched] at work
    obtain ⟨steps, left, ready, rfl, count, stepping, at_access, units, work⟩ := work.steps rfl
    obtain ⟨asks, access, visits, rfl, asking, started, effect⟩ := work.accesses (by rw [at_access])
    rw [Nat.max_eq_left (cycles_pos _ _)] at count units
    rw [at_access] at asking started units
    refine ⟨_, _, steps, asks, access, visits, (List.append_assoc _ _ _).symm, rfl, rfl,
      ⟨Episode.units_of_does does, Episode.asked_of_does does, waits⟩, count, stepping, asking, ?_, ?_, effect⟩
    · rw [started]
      rfl
    · rw [started]
      exact units

/-- Slices until the reference is idle again. -/
def slicesLeft (cpu : Cpu) : Nat :=
  match cpu.continuation with
  | .idle => 0
  | .execute _ _ cycles => max cycles.toNat 1 + cpu.dependents.length + 3
  | .access _ _ synchronized => cpu.dependents.length + if synchronized then 2 else 3
  | .catchup next => (cpu.dependents.drop next.toNat).length + 1

/-- Every slice but the one at the synchronization point brings the end of the instruction closer. -/
theorem Proceeds.closer {cx : Context} {before after : Cpu} {bus : Bus} {action : Action} (proceeds : before.Proceeds cx after bus action)
    (busy : before.continuation ≠ .idle) : after.slicesLeft < before.slicesLeft := by
  cases at_work : before.continuation with
  | idle => exact absurd at_work busy
  | execute opcode operand cycles =>
    obtain ⟨_, _, spent, _⟩ := proceeds.of_execute at_work
    rw [spent]
    simp only [slicesLeft, at_work, dependents]
    by_cases several : 1 < cycles
    · obtain ⟨more, fewer⟩ := counted_down several
      simp only [if_pos several, fewer]
      omega
    · simp only [if_neg several, Bool.false_eq_true, if_false]
      omega
  | access opcode operand synchronized =>
    obtain ⟨_, completed, _⟩ | ⟨rfl, _, _, _, _, asking, _⟩ := proceeds.of_access at_work
    · have low : 2 ≤ if synchronized then 2 else 3 := by split <;> omega
      rw [completed, complete_eq]
      simp only [slicesLeft, at_work, dependents]
      by_cases due : catchupThreshold ≤ before.catchupUnits
      · simp only [if_pos due, UInt8.toNat_zero, List.drop_zero]
        omega
      · simp only [if_neg due]
        omega
    · rw [asking]
      simp [slicesLeft, at_work, dependents]
  | catchup next =>
    obtain ⟨_, ⟨position, level, other, remaining, _, _, _, called⟩ | ⟨_, _, done⟩⟩ := proceeds.of_catchup at_work
    · have here := congrArg List.length remaining
      rw [List.length_append, List.length_cons] at here
      rw [called]
      simp only [slicesLeft, at_work, dependents] at here ⊢
      omega
    · rw [done]
      simp [slicesLeft, at_work]

/-- Surroundings in which the reference can do a slice. -/
structure Fit (cx : Context) (cpu : Cpu) : Prop where
  ready : cx.Ready
  calm : cx.Calm
  side : cx.thread = .cpu
  threads : ∀ id ∈ cpu.dependents, id.index < cx.scheduler.threads.size

theorem Fit.of_same {cx : Context} {cpu later : Cpu} (fit : Fit cx cpu) (same : later.coprocessors = cpu.coprocessors) : Fit cx later :=
  ⟨fit.ready, fit.calm, fit.side, fun id member => fit.threads id (by rwa [dependents, ← same])⟩

theorem slice_returns {cpu : Cpu} {cx : Context} (fit : Fit cx cpu) (few : cpu.coprocessors.toNat ≤ 4)
    (fits : cpu.Fits .any cpu.coprocessors) :
    ∃ episode : Episode Cpu, episode.before = cpu ∧ episode.given = cx ∧ episode.Happens ∧
      episode.after.coprocessors = cpu.coprocessors ∧ episode.after.Fits .any cpu.coprocessors := by
  have prepared : Prepared cx .any cpu.coprocessors cpu := ⟨fit.ready, fit.side, fits, few, fit.threads⟩
  obtain ⟨⟨after, left⟩, happens, _, _, _, same, kept⟩ := (slice_turns .any cpu.coprocessors cpu cx).exists_ok fun fault excused =>
    (excused.2 prepared).2 fit.calm
  exact ⟨⟨cpu, cx, after, left⟩, rfl, rfl, happens, same, kept fits⟩

/-- The reference comes to the end of its work, whatever its surroundings become in the meantime. -/
theorem work_ends (surroundings : Nat → Context) (cpu : Cpu) (fit : ∀ n, Fit (surroundings n) cpu) (few : cpu.coprocessors.toNat ≤ 4)
    (fits : cpu.Fits .any cpu.coprocessors) :
    ∃ episodes later, Work cpu episodes later ∧
      ∀ position episode, episodes[position]? = some episode → episode.given = surroundings position := by
  induction left : cpu.slicesLeft using Nat.strong_induction_on generalizing cpu surroundings with
  | _ count ih =>
    by_cases idle : cpu.continuation = .idle
    · exact ⟨[], cpu, ⟨.rest cpu, by simp, idle⟩, by simp⟩
    · obtain ⟨episode, rfl, given, happens, same, kept⟩ := slice_returns (fit 0) few fits
      obtain ⟨_, _, proceeds⟩ := happens_proceeds happens
      obtain ⟨episodes, later, ⟨course, busy, done⟩, all⟩ :=
        ih _ (left ▸ proceeds.closer idle) _ episode.after (fun n => (fit (n + 1)).of_same same) (same ▸ few) (same ▸ kept) rfl
      refine ⟨episode :: episodes, later, ⟨.slice happens course, List.forall_mem_cons.mpr ⟨idle, busy⟩, done⟩, ?_⟩
      rintro (_ | position) found here
      · cases here
        exact given
      · exact all position found here

/-- Instructions are atomic, whatever the surroundings become between their slices. One that passes the synchronization point steps its
cycles, counts once, and takes effect in a single slice after its last step. Control is handed over before only to the chip that it
touches, and afterwards only in a round of all dependents, each if it is behind. In surroundings that are fit for it, it comes to its
end. -/
theorem instruction_atomic (cpu : Cpu) (few : cpu.coprocessors.toNat ≤ 4) :
    (∀ fetching rest later, Executes cpu fetching rest later →
      ∃ opcode operand steps asks access visits, rest = steps ++ asks ++ access :: visits ∧
        ((fetching :: rest).map Episode.units).sum = (Opcode.cycles opcode operand).toNat * cycleUnits.toNat ∧
        Instruction cpu fetching opcode operand steps asks access visits later) ∧
    (cpu.continuation = .idle → cpu.catchupUnits ≤ 2 * catchupThreshold → ∀ surroundings : Nat → Context,
      (∀ n, Fit (surroundings n) cpu) →
      ((surroundings 0).scheduler.mode = .run ∨ (surroundings 0).scheduler.state? .cpu = some .released) →
      ∃ fetching rest later, Executes cpu fetching rest later ∧
        ∀ position episode, (fetching :: rest)[position]? = some episode → episode.given = surroundings position) := by
  refine ⟨fun fetching rest later executes => ?_, fun idle rested surroundings fit passing => ?_⟩
  · obtain ⟨opcode, operand, steps, asks, access, visits, rfl, instruction⟩ := executes.instruction
    exact ⟨opcode, operand, steps, asks, access, visits, rfl, instruction.units, instruction⟩
  · have fits : cpu.Fits .any cpu.coprocessors := by
      refine ⟨rfl, ?_⟩
      simp only [idle]
      exact UInt32.le_iff_toNat_le.mp rested
    obtain ⟨fetching, rfl, given, happens, same, kept⟩ := slice_returns (fit 0) few fits
    obtain ⟨action, does, proceeds⟩ := happens_proceeds happens
    obtain ⟨_, ⟨rfl, _⟩ | ⟨rfl, fetched⟩⟩ := proceeds.of_idle idle
    · cases does.scheduler with
      | stop point =>
        obtain ⟨thread, found, stays, _⟩ := Scheduler.stopped_of_point point
        rw [given, (fit 0).side] at found stays
        rcases passing with normal | released
        · exact absurd (.inr (.inl normal)) stays
        · rw [Scheduler.state?_eq found] at released
          exact absurd (.inl (Option.some.inj released)) stays
    · obtain ⟨rest, later, work, all⟩ := work_ends _ fetching.after (fun n => (fit (n + 1)).of_same same) (same ▸ few) (same ▸ kept)
      refine ⟨fetching, rest, later, ⟨rfl, idle, happens, by simp [fetched, fetch], work⟩, ?_⟩
      rintro (_ | position) found here
      · cases here
        exact given
      · exact all position found here

theorem level_fit : Fit (.level .cpu) (Cpu.new 4) where
  ready := Context.level_ready (by decide)
  calm := Context.level_calm .cpu
  side := rfl
  threads _ member := (index_of_dependent member).2

/-- The first instruction after power-on. -/
theorem first_instruction_atomic : ∃ fetching rest later, Executes (Cpu.new 4) fetching rest later ∧
    ∃ opcode operand steps asks access visits, rest = steps ++ asks ++ access :: visits ∧
      ((fetching :: rest).map Episode.units).sum = (Opcode.cycles opcode operand).toNat * cycleUnits.toNat ∧
      Instruction (Cpu.new 4) fetching opcode operand steps asks access visits later := by
  obtain ⟨all, comes⟩ := instruction_atomic (Cpu.new 4) (by decide)
  obtain ⟨fetching, rest, later, executes, _⟩ := comes rfl (by decide) (fun _ => .level .cpu) (fun _ => level_fit) (.inl rfl)
  exact ⟨fetching, rest, later, executes, all fetching rest later executes⟩

end Cpu
end MultiClock
