import MultiClock.Proofs.BoardTurns
import MultiClock.Proofs.SliceEffects

/-! Why no chip needs a lock. A slice of one chip leaves the registers, the work in flight and the thread of every other chip alone, and
what it writes to the bus is only its own to write. -/

namespace MultiClock

namespace Latch

/-- The reference wrote one port of a latch at most. Writing the first port raises the strobe. -/
structure Asked (before after : Latch) : Prop where
  port : ∃ port < 4, (∀ other < 4, other ≠ port → after.readInput other = before.readInput other) ∧
    after.strobe = (before.strobe || port == 0)
  output : after.output = before.output

/-- The other chip wrote to its output of a latch, or acknowledged the strobe. -/
structure Answered (before after : Latch) : Prop where
  input : after.input = before.input
  strobe : after.strobe = true → before.strobe = true

theorem asked_writeInput (latch : Latch) (number : Nat) (value : UInt8) : latch.Asked (latch.writeInput number value) := by
  refine ⟨⟨number % 4, Nat.mod_lt number (by norm_num), ?_, ?_⟩, rfl⟩
  · intro other inside different
    simp only [readInput, writeInput, port, Fin.getElem_fin]
    exact Vector.getElem_set_ne _ _ (by omega)
  · have first : (port number == 0) = (number % 4 == 0) := by
      rw [Bool.eq_iff_iff, beq_iff_eq, beq_iff_eq, Fin.ext_iff]
      rfl
    simp only [writeInput, first]

end Latch

namespace Bus

/-- One latch of a coprocessor changes in a certain way, and nothing else does. -/
structure Touched (number : Nat) (change : Latch → Latch → Prop) (before after : Bus) : Prop where
  wram : after.wram = before.wram
  apu : after.apu = before.apu
  size : after.coprocessors.size = before.coprocessors.size
  others : ∀ other, other ≠ number → after.coprocessors[other]? = before.coprocessors[other]?
  own : ∀ latch, before.coprocessors[number]? = some latch →
    ∃ later, after.coprocessors[number]? = some later ∧ change latch later

variable {number : Nat} {change : Latch → Latch → Prop}

theorem Touched.modify (bus : Bus) {write : Latch → Latch} (writes : ∀ latch, change latch (write latch)) :
    Touched number change bus (bus.modifyCoprocessor number write) := by
  refine ⟨rfl, rfl, bus.size_modifyCoprocessor number write, ?_, ?_⟩
  · intro other different
    rw [coprocessors_modifyCoprocessor, if_neg (Ne.symm different)]
  · intro latch found
    refine ⟨write latch, ?_, writes latch⟩
    rw [coprocessors_modifyCoprocessor, if_pos rfl, found, Option.map_some]

theorem Touched.refl (bus : Bus) (same : ∀ latch, change latch latch) : Touched number change bus bus :=
  ⟨rfl, rfl, rfl, fun _ _ => rfl, fun latch found => ⟨latch, found, same latch⟩⟩

end Bus

namespace Cpu

/-- The reference writes to one byte of memory, or to the input of one latch, at most. -/
inductive Writes (before after : Bus) : Prop
  | nothing (same : after = before)
  | memory (cell : Nat) (others : ∀ other, other ≠ cell → after.wram[other]? = before.wram[other]?)
      (apu : after.apu = before.apu) (coprocessors : after.coprocessors = before.coprocessors)
  | apu (asked : before.apu.Asked after.apu) (wram : after.wram = before.wram) (coprocessors : after.coprocessors = before.coprocessors)
  | coprocessor (number : Nat) (touched : before.Touched number Latch.Asked after)

theorem perform_writes (cpu : Cpu) (opcode : Opcode) (operand : UInt8) (bus : Bus) : Writes bus (cpu.perform opcode operand bus).2 := by
  cases opcode with
  | store =>
    refine .memory (Bus.wramIndex cpu.x) ?_ rfl rfl
    intro other different
    exact Vector.getElem?_set_ne (Bus.wramIndex cpu.x).isLt (Ne.symm different)
  | apuWrite => exact .apu (bus.apu.asked_writeInput operand.toNat cpu.a.toUInt8) rfl rfl
  | copWrite =>
    simp only [perform]
    split
    next index _ => exact .coprocessor index.toNat (.modify bus fun latch => latch.asked_writeInput operand.toNat cpu.a.toUInt8)
    next => exact .nothing rfl
  | copRead =>
    simp only [perform]
    split <;> exact .nothing rfl
  | add | apuRead | shift | wait => exact .nothing rfl

theorem Proceeds.writes {cx : Context} {before after : Cpu} {bus : Bus} {action : Action}
    (proceeds : before.Proceeds cx after bus action) : Writes cx.bus bus := by
  cases proceeds with
  | stop | fetch | step | ask | call | caughtUp => exact .nothing rfl
  | access opcode operand => exact before.perform_writes opcode operand cx.bus

end Cpu

namespace Smp

/-- The audio processor writes one byte of its output at most. -/
structure Outputs (before after : Bus) : Prop where
  wram : after.wram = before.wram
  coprocessors : after.coprocessors = before.coprocessors
  input : after.apu.input = before.apu.input
  strobe : after.apu.strobe = before.apu.strobe
  port : ∃ port < 4, ∀ other < 4, other ≠ port → after.apu.readOutput other = before.apu.readOutput other

theorem Speaks.outputs {before after : Bus} (speaks : Speaks before after) : Outputs before after := by
  cases speaks with
  | silent => exact ⟨rfl, rfl, rfl, rfl, 0, by norm_num, fun _ _ _ => rfl⟩
  | port number value =>
    refine ⟨rfl, rfl, rfl, rfl, number % 4, Nat.mod_lt number (by norm_num), ?_⟩
    intro other inside different
    simp only [Latch.readOutput, Latch.writeOutput, Latch.port, Fin.getElem_fin]
    exact Vector.getElem_set_ne _ _ (by omega)

end Smp

namespace Coprocessor

def latch : Coprocessor → UInt8
  | multiplier unit => unit.index
  | rtc clock => clock.index

theorem touched_multiplier {bus later : Bus} {before after : Multiplier} {action : Action}
    (proceeds : before.Proceeds bus after later action) : bus.Touched before.index.toNat Latch.Answered later := by
  cases proceeds with
  | stop | wait | caughtUp | step => exact .refl bus fun _ => ⟨rfl, id⟩
  | take => exact .modify bus fun _ => ⟨rfl, fun raised => (by simp [Multiplier.taken] at raised)⟩
  | complete => exact .modify bus fun _ => ⟨rfl, id⟩

theorem touched_rtc {bus later : Bus} {before after : Rtc} {action : Action}
    (proceeds : before.Proceeds bus after later action) : bus.Touched before.index.toNat Latch.Answered later := by
  cases proceeds with
  | stop | caughtUp => exact .refl bus fun _ => ⟨rfl, id⟩
  | tick =>
    unfold Rtc.work
    split
    next => exact .refl bus fun _ => ⟨rfl, id⟩
    next => exact .modify bus fun _ => ⟨rfl, fun raised => absurd raised Bool.false_ne_true⟩

theorem slice_touches (chip : Coprocessor) (cx : Context) :
    Meets (fun _ => True) (fun result => cx.bus.Touched chip.latch.toNat Latch.Answered result.2.bus) (Chip.slice chip cx) := by
  cases chip with
  | multiplier unit =>
    refine (unit.slice_proceeds cx).bind ?_
    intro result called
    obtain ⟨action, _, proceeds⟩ := called
    exact .pure (touched_multiplier proceeds)
  | rtc clock =>
    refine (clock.slice_proceeds cx).bind ?_
    intro result called
    obtain ⟨action, _, proceeds⟩ := called
    exact .pure (touched_rtc proceeds)

end Coprocessor

namespace Board

/-- What a slice of one chip leaves of a board and of the threads. -/
structure Isolated (id : ThreadId) (before : Board) (scheduler : Scheduler) (after : Board) (later : Scheduler) : Prop where
  cpu : id ≠ .cpu → after.cpu = before.cpu
  smp : id ≠ .smp → after.smp = before.smp
  ppu : id ≠ .ppu → after.ppu = before.ppu
  chips : after.coprocessors.size = before.coprocessors.size
  coprocessors : ∀ position, (∀ index, id = .coprocessor index → index.toNat ≠ position) →
    after.coprocessors[position]? = before.coprocessors[position]?
  frame : after.frame = before.frame
  states : ∀ other, other ≠ id → later.state? other = scheduler.state? other
  /-- A dependent moves its own clock only. -/
  dependent : id ≠ .cpu → ∀ other, other ≠ id → later.thread? other = scheduler.thread? other
  /-- The reference leaves all clocks alone or rewinds every dependent by the same time. -/
  reference : id = .cpu → (∀ other, later.time other = scheduler.time other) ∨
    ∃ units > 0, later.time .cpu = scheduler.time .cpu ∧
      ∀ other, other ≠ .cpu → later.time other = scheduler.time other - (units * scheduler.rate other : Nat)
  writes : id = .cpu → Cpu.Writes before.bus after.bus
  outputs : id = .smp → Smp.Outputs before.bus after.bus
  looks : id = .ppu → after.bus = before.bus
  answers : ∀ index, id = .coprocessor index → ∀ chip, before.coprocessors[index.toNat]? = some chip →
    before.bus.Touched chip.latch.toNat Latch.Answered after.bus
  absent : ∀ index, id = .coprocessor index → before.coprocessors[index.toNat]? = none → after = before ∧ later = scheduler

section slice
variable {board later : Board} {scheduler after : Scheduler} {notices : List Notice}

theorem slice_cpu_eq_ok (sliced : board.slice .cpu scheduler = .ok (later, after, notices)) :
    ∃ cpu left, Chip.slice board.cpu ⟨board.bus, scheduler, .cpu, []⟩ = .ok (cpu, left) ∧ later = { board with bus := left.bus, cpu } := by
  obtain ⟨⟨cpu, left⟩, moved, same⟩ := Except.bind_eq_ok sliced
  cases same
  exact ⟨cpu, left, moved, rfl⟩

theorem slice_smp_eq_ok (sliced : board.slice .smp scheduler = .ok (later, after, notices)) :
    ∃ smp left, Chip.slice board.smp ⟨board.bus, scheduler, .smp, []⟩ = .ok (smp, left) ∧ later = { board with bus := left.bus, smp } := by
  obtain ⟨⟨smp, left⟩, moved, same⟩ := Except.bind_eq_ok sliced
  cases same
  exact ⟨smp, left, moved, rfl⟩

theorem slice_ppu_eq_ok (sliced : board.slice .ppu scheduler = .ok (later, after, notices)) :
    ∃ ppu left, Chip.slice board.ppu ⟨board.bus, scheduler, .ppu, []⟩ = .ok (ppu, left) ∧ later = { board with bus := left.bus, ppu } := by
  obtain ⟨⟨ppu, left⟩, moved, same⟩ := Except.bind_eq_ok sliced
  cases same
  exact ⟨ppu, left, moved, rfl⟩

theorem slice_coprocessor_eq_ok {index : UInt8} {chip : Coprocessor} (found : board.coprocessors[index.toNat]? = some chip)
    (sliced : board.slice (.coprocessor index) scheduler = .ok (later, after, notices)) :
    ∃ moved left, Chip.slice chip ⟨board.bus, scheduler, .coprocessor index, []⟩ = .ok (moved, left) ∧
      later = { board with bus := left.bus, coprocessors := board.coprocessors.setIfInBounds index.toNat moved } := by
  obtain ⟨⟨coprocessors, left⟩, visited, same⟩ := Except.bind_eq_ok sliced
  rw [Array.modifyM_apply found] at visited
  obtain ⟨⟨moved, left⟩, moves, rest⟩ := Except.bind_eq_ok visited
  cases rest
  cases same
  exact ⟨moved, left, moves, rfl⟩

theorem slice_absent {index : UInt8} (missing : board.coprocessors[index.toNat]? = none)
    (sliced : board.slice (.coprocessor index) scheduler = .ok (later, after, notices)) : later = board ∧ after = scheduler := by
  obtain ⟨⟨coprocessors, left⟩, visited, same⟩ := Except.bind_eq_ok sliced
  rw [Array.modifyM_none missing] at visited
  cases visited
  cases same
  exact ⟨rfl, rfl⟩

theorem slice_coprocessors {id : ThreadId} (sliced : board.slice id scheduler = .ok (later, after, notices)) :
    later.coprocessors.size = board.coprocessors.size ∧
      ∀ position, (∀ index, id = .coprocessor index → index.toNat ≠ position) →
        later.coprocessors[position]? = board.coprocessors[position]? := by
  cases id with
  | cpu =>
    obtain ⟨_, _, _, rfl⟩ := slice_cpu_eq_ok sliced
    exact ⟨rfl, fun _ _ => rfl⟩
  | smp =>
    obtain ⟨_, _, _, rfl⟩ := slice_smp_eq_ok sliced
    exact ⟨rfl, fun _ _ => rfl⟩
  | ppu =>
    obtain ⟨_, _, _, rfl⟩ := slice_ppu_eq_ok sliced
    exact ⟨rfl, fun _ _ => rfl⟩
  | coprocessor index =>
    cases found : board.coprocessors[index.toNat]? with
    | none =>
      obtain ⟨rfl, _⟩ := slice_absent found sliced
      exact ⟨rfl, fun _ _ => rfl⟩
    | some chip =>
      obtain ⟨moved, left, _, rfl⟩ := slice_coprocessor_eq_ok found sliced
      refine ⟨Array.size_setIfInBounds, ?_⟩
      intro position apart
      exact Array.getElem?_setIfInBounds_ne (apart index rfl)

/-- A slice reaches its own chip, its own thread, and what is its own to write on the bus. -/
theorem slice_isolated {id : ThreadId} (indexed : scheduler.Indexed) (sliced : board.slice id scheduler = .ok (later, after, notices)) :
    Isolated id board scheduler later after := by
  obtain ⟨action, does, _⟩ := (slice_comes .any [] board scheduler id).of_ok sliced
  obtain ⟨cpu, smp, ppu, frame⟩ := (slice_keeps id board scheduler).of_ok sliced
  obtain ⟨chips, coprocessors⟩ := slice_coprocessors sliced
  constructor
  case cpu => exact cpu
  case smp => exact smp
  case ppu => exact ppu
  case chips => exact chips
  case coprocessors => exact coprocessors
  case frame => exact frame
  case dependent => exact (does.kept indexed).others
  case states =>
    intro other different
    rw [does.state? indexed, if_neg (Ne.symm different)]
  case reference =>
    intro reference
    subst reference
    rcases Nat.eq_zero_or_pos action.units with idle | spent
    · refine .inl fun other => ?_
      by_cases own : other = .cpu
      · subst own
        exact does.time_reference indexed
      · rw [does.time_others indexed own, idle, Nat.zero_mul, Nat.cast_zero, Int.sub_zero]
    · exact .inr ⟨action.units, spent, does.time_reference indexed, fun other => does.time_others indexed⟩
  case writes =>
    intro reference
    subst reference
    obtain ⟨moved, left, moves, rfl⟩ := slice_cpu_eq_ok sliced
    obtain ⟨_, _, _, proceeds, rfl⟩ := (board.cpu.slice_proceeds _).of_ok moves
    exact proceeds.writes
  case outputs =>
    intro audio
    subst audio
    obtain ⟨moved, left, moves, rfl⟩ := slice_smp_eq_ok sliced
    exact ((board.smp.slice_speaks _).of_ok moves).outputs
  case looks =>
    intro display
    subst display
    obtain ⟨moved, left, moves, rfl⟩ := slice_ppu_eq_ok sliced
    exact (board.ppu.slice_looks _).of_ok moves
  case answers =>
    intro index own chip found
    subst own
    obtain ⟨moved, left, moves, rfl⟩ := slice_coprocessor_eq_ok found sliced
    exact (chip.slice_touches _).of_ok moves
  case absent =>
    intro index own missing
    subst own
    exact slice_absent missing sliced

/-- The first tick of a clock next to an arithmetic unit. -/
theorem slice_isolated_level : ∃ later after notices,
    (Board.new [.multiplier, .rtc]).slice (.coprocessor 1) (Context.level (.coprocessor 1)).scheduler = .ok (later, after, notices) ∧
      Isolated (.coprocessor 1) (Board.new [.multiplier, .rtc]) (Context.level (.coprocessor 1)).scheduler later after :=
  ⟨_, _, _, rfl, slice_isolated (Context.level_ready (by decide)).indexed rfl⟩

end slice

end Board
end MultiClock
