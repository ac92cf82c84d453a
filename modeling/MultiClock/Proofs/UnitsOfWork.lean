import Mathlib.Logic.Relation
import MultiClock.Proofs.FrameCadence
import MultiClock.Proofs.Samples
import MultiClock.Proofs.SteeredCalls

/-! Whole units of work: an instruction, a line, a command or a wait for one, a tick. A unit takes its chip from one boundary to
the next. It is written down in one piece here, and while chips are steered to their points the slices of a chip come to just that. -/

namespace MultiClock

namespace Scheduler
variable {scheduler : Scheduler} {id : ThreadId} {room : Nat}

/-- The scheduler after a dependent did a unit of work that takes so many clock units. -/
def worked (scheduler : Scheduler) (id : ThreadId) (units : Nat) : Scheduler := (scheduler.passed id).advanced id units

/-- The dependent has control and nobody asked for it. -/
theorem Steering.control (steering : scheduler.Steering id room) : scheduler.active = id ∧ scheduler.transfer = none :=
  ⟨steering.active, steering.free⟩

/-- What is left of the room when all of it is used up. -/
theorem Steering.spent (steering : scheduler.Steering id room) : (scheduler.advanced id room).Steering id 0 :=
  advance (show scheduler.Steering id (room + 0) from steering)

theorem Steering.worked (steering : scheduler.Steering id room) : (scheduler.worked id room).Steering id 0 := steering.passed.spent

end Scheduler

namespace Chip
variable {χ : Type} [Chip χ]

/-- A slice of the active chip that asks for no transfer of control: the chip, the bus and the scheduler, before and after. -/
def Goes (id : ThreadId) (before after : χ × Bus × Scheduler) : Prop :=
  ∃ notices, Chip.slice before.1 ⟨before.2.1, before.2.2, id, []⟩ = .ok (after.1, ⟨after.2.1, after.2.2, id, notices⟩) ∧
    before.2.2.active = id ∧ after.2.2.transfer = none

/-- Some such slices, one after another. -/
abbrev GoesOn (id : ThreadId) : χ × Bus × Scheduler → χ × Bus × Scheduler → Prop := Relation.ReflTransGen (Goes id)

end Chip

open Relation Chip

/-- Work that is counted down: every slice takes as many units and changes the chip in the same way, up to the one that ends it. -/
theorem countdown_goes [Chip χ] {id : ThreadId} {bus : Bus} {units : Nat} (working : UInt8 → α → χ) (done : α → χ) (advance : α → α)
    (fits : α → Prop) (keeps : ∀ state, fits state → fits (advance state))
    (cycle : ∀ remaining state {scheduler : Scheduler}, fits state → scheduler.Steering id units →
      Goes id (working remaining state, bus, scheduler)
        (if 1 < remaining then working (remaining - 1) (advance state) else done (advance state), bus, scheduler.advanced id units))
    {count : Nat} {remaining : UInt8} (counts : remaining.toNat = count + 1) (state : α) (ready : fits state) {scheduler : Scheduler}
    (steering : scheduler.Steering id (units * (count + 1))) :
    GoesOn id (working remaining state, bus, scheduler)
      (done (advance^[count + 1] state), bus, scheduler.advanced id (units * (count + 1))) := by
  -- The counter of the chip stops at one and not at zero, hence the successor in every count.
  induction count generalizing remaining state scheduler with
  | zero =>
    rw [Nat.zero_add, Nat.mul_one] at steering ⊢
    have last := cycle remaining state ready steering
    have ends : ¬ 1 < remaining := by
      rw [UInt8.lt_iff_toNat_lt, counts]
      decide
    rw [if_neg ends] at last
    exact .single last
  | succ count ih =>
    rw [show units * (count + 1 + 1) = units + units * (count + 1) by ring] at steering ⊢
    have first := cycle remaining state ready (steering.less (Nat.le_add_right _ _))
    have several : 1 < remaining := by
      rw [UInt8.lt_iff_toNat_lt, counts]
      exact Nat.succ_lt_succ (Nat.succ_pos count)
    rw [if_pos several] at first
    have fewer : (remaining - 1).toNat = count + 1 := by
      rw [(counted_down several).2, counts]
      rfl
    have rest := ih fewer (advance state) (keeps state ready) steering.advance
    rw [Scheduler.advanced_advanced] at rest
    exact .head first rest

namespace Smp
variable {scheduler : Scheduler} {id : ThreadId} (bus : Bus)

/-- In front of an instruction, with room to count a cycle. -/
structure Poised (smp : Smp) : Prop where
  idle : smp.continuation = .idle
  countable : smp.elapsed.toNat + cycleUnits.toNat < 2 ^ 32

/-- After one more instruction cycle. -/
def counted (smp : Smp) : Smp :=
  let elapsed := smp.elapsed + cycleUnits
  if elapsed < sampleUnits then { smp with elapsed } else { smp with elapsed := elapsed - sampleUnits }.emit

/-- What an instruction does once its cycles are spent. -/
def effect (smp : Smp) (opcode : Opcode) (operand : UInt8) (bus : Bus) : Smp × Bus :=
  match opcode with
  | .mix =>
    let input := (smp.ram.get (inputAddress operand smp.a)).toInt8
    ({ smp with mix := .ofInt (smp.mix.toInt - smp.mix.toInt / 8 + input.toInt * 32) }, bus)
  | .portRead => ({ smp with a := bus.apu.readInput operand.toNat }, bus)
  | .portWrite =>
    let value := smp.a ^^^ (smp.mix >>> 8).toUInt32.toUInt8
    (smp, { bus with apu := bus.apu.writeOutput operand.toNat value })
  | .store =>
    let value := smp.a + smp.mix.toUInt32.toUInt8
    ({ smp with ram := smp.ram.setIfInBounds (storeAddress operand smp.a) value }, bus)

def opcode (smp : Smp) : Opcode := Opcode.decode (smp.ram.get smp.pc)

def duration (smp : Smp) : Nat := cycleUnits.toNat * smp.opcode.cycles.toNat

def instruction (smp : Smp) (bus : Bus) : Smp × Bus :=
  (counted^[smp.opcode.cycles.toNat] { smp with pc := smp.pc + address 2 }).effect smp.opcode (smp.ram.get (smp.pc + address 1)) bus

theorem counted_continuation (smp : Smp) (continuation : Continuation) :
    counted { smp with continuation } = { smp.counted with continuation } := by
  simp only [counted, emit]
  split
  · rfl
  · split <;> rfl

theorem continuation_counted (smp : Smp) : smp.counted.continuation = smp.continuation :=
  congrArg (·.continuation) (smp.counted_continuation smp.continuation)

theorem counted_countable {smp : Smp} (countable : smp.elapsed.toNat + cycleUnits.toNat < 2 ^ 32) :
    smp.counted.elapsed.toNat + cycleUnits.toNat < 2 ^ 32 := by
  have sum : (smp.elapsed + cycleUnits).toNat = smp.elapsed.toNat + cycleUnits.toNat := by
    rw [UInt32.toNat_add, Nat.mod_eq_of_lt countable]
  simp only [counted]
  split
  next below =>
    rw [UInt32.lt_iff_toNat_lt] at below
    simp only [sampleUnits, cycleUnits, UInt32.reduceToNat] at below ⊢
    omega
  next due =>
    rw [emit_elapsed]
    simp only
    rw [UInt32.toNat_sub_of_le _ _ (UInt32.not_lt.mp due), sum]
    simp only [sampleUnits, cycleUnits, UInt32.reduceToNat]
    omega

theorem elapse_eq {smp : Smp} (countable : smp.elapsed.toNat + cycleUnits.toNat < 2 ^ 32) :
    smp.elapse cycleUnits = .ok smp.counted := by
  have fits : Checked.add32 smp.elapsed cycleUnits = .ok (smp.elapsed + cycleUnits) := by
    rw [Checked.add32, if_neg]
    rw [UInt32.lt_iff_toNat_lt, UInt32.toNat_add, Nat.mod_eq_of_lt countable]
    omega
  simp only [elapse, fits, counted, bind, Except.bind]
  split <;> rfl

theorem effect_continuation (smp : Smp) (continuation : Continuation) (opcode : Opcode) (operand : UInt8) (bus : Bus) :
    effect { smp with continuation } opcode operand bus =
      ({ (smp.effect opcode operand bus).1 with continuation }, (smp.effect opcode operand bus).2) := by
  cases opcode <;> rfl

theorem perform_eq (smp : Smp) (opcode : Opcode) (operand : UInt8) (bus : Bus) :
    smp.perform opcode operand bus = .ok (smp.effect opcode operand bus) := by
  cases opcode with
  | mix =>
    have low := smp.mix.le_toInt
    have high := smp.mix.toInt_lt
    have quiet := smp.ram[inputAddress operand smp.a].toInt8.le_toInt
    have loud := smp.ram[inputAddress operand smp.a].toInt8.toInt_lt
    have fits : mixed smp.mix smp.ram[inputAddress operand smp.a].toInt8 =
        .ok (.ofInt (smp.mix.toInt - smp.mix.toInt / 8 + smp.ram[inputAddress operand smp.a].toInt8.toInt * 32)) := by
      rw [mixed, Checked.int32, if_pos]
      rw [show Int32.minValue.toInt = -2 ^ 31 from rfl, show Int32.maxValue.toInt = 2 ^ 31 - 1 from rfl]
      omega
    simp only [perform, fits, bind, Except.bind]
    rfl
  | store =>
    have inside : ∀ value, smp.ram.set (storeAddress operand smp.a) value = smp.ram.setIfInBounds (storeAddress operand smp.a) value := by
      grind
    simp only [perform, inside]
    rfl
  | portRead | portWrite => rfl

theorem cycle_goes (opcode : Opcode) (operand cycles : UInt8) (smp : Smp) {scheduler : Scheduler}
    (countable : smp.elapsed.toNat + cycleUnits.toNat < 2 ^ 32) (steering : scheduler.Steering id cycleUnits.toNat) :
    Goes id ({ smp with continuation := .execute opcode operand cycles }, bus, scheduler)
      (if 1 < cycles then { smp.counted with continuation := .execute opcode operand (cycles - 1) }
        else { smp.counted with continuation := .access opcode operand false }, bus, scheduler.advanced id cycleUnits.toNat) := by
  obtain ⟨notice, stepped⟩ := Context.step_steered bus [] cycleUnits steering
  have counts : elapse { smp with continuation := .execute opcode operand cycles } cycleUnits = .ok _ := elapse_eq countable
  rw [counted_continuation] at counts
  refine ⟨[notice], ?_, steering.control⟩
  simp only [Chip.slice, slice, stepped, counts, bind, Except.bind]
  split <;> rfl

theorem execute_goes {count : Nat} {cycles : UInt8} (opcode : Opcode) (operand : UInt8) (counts : cycles.toNat = count + 1) (smp : Smp)
    (countable : smp.elapsed.toNat + cycleUnits.toNat < 2 ^ 32) (steering : scheduler.Steering id (cycleUnits.toNat * (count + 1))) :
    GoesOn id ({ smp with continuation := .execute opcode operand cycles }, bus, scheduler)
      ({ counted^[count + 1] smp with continuation := .access opcode operand false }, bus,
        scheduler.advanced id (cycleUnits.toNat * (count + 1))) :=
  countdown_goes (fun cycles smp => { smp with continuation := .execute opcode operand cycles })
    (fun smp => { smp with continuation := .access opcode operand false }) counted
    (fun smp => smp.elapsed.toNat + cycleUnits.toNat < 2 ^ 32) (fun _ => counted_countable)
    (fun cycles smp _ => cycle_goes bus opcode operand cycles smp) counts smp countable steering

theorem complete_steered (smp : Smp) (opcode : Opcode) (operand : UInt8) (notices : List Notice) {room : Nat}
    (steering : scheduler.Steering id room) :
    smp.complete opcode operand ⟨bus, scheduler, id, notices⟩ =
      .ok ({ (smp.effect opcode operand bus).1 with continuation := .idle }, ⟨(smp.effect opcode operand bus).2, scheduler, id, notices⟩) := by
  simp only [complete, perform_eq, Context.synchronizeAhead_steered _ _ steering, bind, Except.bind]
  rfl

theorem access_goes (smp : Smp) (opcode : Opcode) (operand : UInt8) {room : Nat} (steering : scheduler.Steering id room) :
    Goes id ({ smp with continuation := .access opcode operand false }, bus, scheduler)
      ({ (smp.effect opcode operand bus).1 with continuation := .idle }, (smp.effect opcode operand bus).2, scheduler) := by
  have completes := complete_steered bus { smp with continuation := .access opcode operand false } opcode operand [] steering
  rw [effect_continuation] at completes
  refine ⟨[], ?_, steering.control⟩
  simp only [Chip.slice, slice, Context.synchronizeCpu_steered _ _ steering, completes, bind, Except.bind]
  split <;> rfl

theorem Poised.counted {smp : Smp} (poised : smp.Poised) : smp.counted.Poised :=
  ⟨smp.continuation_counted.trans poised.idle, counted_countable poised.countable⟩

theorem Poised.effect {smp : Smp} (poised : smp.Poised) (opcode : Opcode) (operand : UInt8) (bus : Bus) :
    (smp.effect opcode operand bus).1.Poised := by
  cases opcode <;> exact ⟨poised.idle, poised.countable⟩

theorem Poised.instruction {smp : Smp} (poised : smp.Poised) (bus : Bus) : (smp.instruction bus).1.Poised := by
  have begins : Poised { smp with pc := smp.pc + 2 } := ⟨poised.idle, poised.countable⟩
  exact (Function.Iterate.rec Poised begins (fun _ => Poised.counted) _).effect _ _ _

theorem Poised.stops {smp : Smp} (poised : smp.Poised) {room : Nat} (steering : scheduler.Steering id room)
    (stays : ¬ scheduler.Passes id) :
    Chip.slice smp ⟨bus, scheduler, id, []⟩ = .ok (smp, ⟨bus, scheduler.stopped id, id, []⟩) := by
  simp only [Chip.slice, slice, poised.idle, Context.point_stops _ _ steering stays, bind, Except.bind]
  rfl

theorem instruction_goes {smp : Smp} (poised : smp.Poised) (steering : scheduler.Steering id smp.duration) (passes : scheduler.Passes id) :
    GoesOn id (smp, bus, scheduler) ((smp.instruction bus).1, (smp.instruction bus).2, scheduler.worked id smp.duration) := by
  have fetches : Goes id (smp, bus, scheduler) (smp.fetch, bus, scheduler.passed id) := by
    refine ⟨[], ?_, steering.passed.control⟩
    simp only [Chip.slice, slice, poised.idle, Context.point_passes _ _ steering passes, bind, Except.bind]
    rfl
  obtain ⟨count, counts⟩ : ∃ count, smp.opcode.cycles.toNat = count + 1 := by
    cases smp.opcode with
    | mix | store => exact ⟨1, rfl⟩
    | portRead | portWrite => exact ⟨2, rfl⟩
  have ends := (poised.instruction bus).idle
  have ready := steering.passed
  rw [instruction, counts] at ends
  rw [duration, counts] at ready
  have executes := execute_goes bus smp.opcode smp.ram[smp.pc + 1] counts { smp with pc := smp.pc + 2 } poised.countable ready
  have accesses := access_goes bus (counted^[count + 1] { smp with pc := smp.pc + 2 }) smp.opcode smp.ram[smp.pc + 1] ready.spent
  rw [← ends] at accesses
  rw [Scheduler.worked, duration, instruction, counts]
  exact .head fetches (executes.tail accesses)

end Smp
namespace Ppu
variable {scheduler : Scheduler} {id : ThreadId} (bus : Bus)

/-- At the start of a line, with room to count it. -/
structure Poised (ppu : Ppu) : Prop where
  idle : ppu.continuation = .idle
  countable : ppu.line.toNat + 1 < 2 ^ 16

/-- After the last dot of a line. -/
def ended (ppu : Ppu) : Ppu :=
  { ppu with line := ppu.line + 1, continuation := if ppu.line + 1 = visibleLines then .frame else .endOfLine }

theorem ended_continuation (ppu : Ppu) : ppu.ended.continuation = .frame ∨ ppu.ended.continuation = .endOfLine := by
  unfold ended
  split
  · exact .inl rfl
  · exact .inr rfl

/-- After so many dots from a dot on. -/
def shown (ppu : Ppu) (bus : Bus) (dot count : Nat) : Ppu := { ppu with picture := draw bus ppu.line count dot ppu.picture }

/-- At the start of the line after an ended one. -/
def wrapped (ppu : Ppu) : Ppu := { ppu with line := if linesPerFrame ≤ ppu.line then 0 else ppu.line, continuation := .idle }

theorem draw_append (bus : Bus) (line : UInt16) (first second dot : Nat) (picture : Framebuffer) :
    draw bus line (first + second) dot picture = draw bus line second (dot + first) (draw bus line first dot picture) := by
  unfold draw
  split
  next visible =>
    induction first generalizing dot picture with
    | zero => rw [Nat.zero_add, drawDots, Nat.add_zero]
    | succ first ih =>
      rw [Nat.succ_add, drawDots, drawDots, ih, Nat.add_assoc, Nat.add_comm 1]
  next => rfl

theorem endLine_eq {ppu : Ppu} (countable : ppu.line.toNat + 1 < 2 ^ 16) : ppu.endLine = .ok ppu.ended := by
  have fits : Checked.add16 ppu.line 1 = .ok (ppu.line + 1) := by
    rw [Checked.add16, if_neg]
    rw [UInt16.lt_iff_toNat_lt, UInt16.toNat_add, UInt16.toNat_one, Nat.mod_eq_of_lt countable]
    omega
  simp only [endLine, fits, bind, Except.bind]
  rfl

theorem render_goes (ppu : Ppu) {dot : Fin 341} (more : dot + dotsPerSlice < 341) (steering : scheduler.Steering id (4 * dotsPerSlice)) :
    Goes id ({ ppu with continuation := .line dot }, bus, scheduler)
      ({ ppu.shown bus dot dotsPerSlice with continuation := .line ⟨dot + dotsPerSlice, more⟩ }, bus,
        scheduler.advanced id (4 * dotsPerSlice)) := by
  have count : min dotsPerSlice (dotsPerLine - dot) = dotsPerSlice := by
    simp only [dotsPerSlice, dotsPerLine] at more ⊢
    omega
  obtain ⟨notice, stepped⟩ := Context.step_steered bus [] (UInt32.ofNat dotsPerSlice * dotUnits) steering
  refine ⟨[notice], ?_, steering.control⟩
  simp only [Chip.slice, slice, render, count, stepped, bind, Except.bind, dif_pos more]
  rfl

theorem render_ends {ppu : Ppu} (countable : ppu.line.toNat + 1 < 2 ^ 16) {dot : Fin 341} (few : 341 ≤ dot + dotsPerSlice)
    (steering : scheduler.Steering id (4 * (341 - dot))) :
    Goes id ({ ppu with continuation := .line dot }, bus, scheduler)
      ((ppu.shown bus dot (341 - dot)).ended, bus, scheduler.advanced id (4 * (341 - dot))) := by
  have inside := dot.isLt
  have count : min dotsPerSlice (dotsPerLine - dot) = 341 - dot := by
    simp only [dotsPerSlice, dotsPerLine] at few ⊢
    omega
  have units : (UInt32.ofNat (341 - dot) * dotUnits).toNat = 4 * (341 - dot) := by
    simp only [dotsPerSlice] at few
    simp only [dotUnits, UInt32.toNat_mul, UInt32.toNat_ofNat', UInt32.reduceToNat]
    omega
  rw [← units] at steering ⊢
  obtain ⟨notice, stepped⟩ := Context.step_steered bus [] _ steering
  have last : ¬ dot.val + (341 - dot.val) < 341 := by omega
  have ends : endLine { ppu.shown bus dot (341 - dot) with continuation := .line dot } = .ok _ := endLine_eq countable
  refine ⟨[notice], ?_, steering.control⟩
  simp only [shown] at ends
  simp only [Chip.slice, slice, render, count, stepped, ends, bind, Except.bind, dif_neg last]
  rfl

/-- The slices of a line, from any of its dots on. -/
theorem dots_goes {left : Nat} {ppu : Ppu} (countable : ppu.line.toNat + 1 < 2 ^ 16) {dot : Fin 341} (rest : 341 - dot.val = left)
    (steering : scheduler.Steering id (4 * left)) :
    GoesOn id ({ ppu with continuation := .line dot }, bus, scheduler)
      ((ppu.shown bus dot left).ended, bus, scheduler.advanced id (4 * left)) := by
  induction left using Nat.strong_induction_on generalizing ppu dot scheduler with
  | _ left ih =>
    by_cases more : dot + dotsPerSlice < 341
    · obtain ⟨fewer, rfl⟩ : ∃ fewer, left = dotsPerSlice + fewer := ⟨left - dotsPerSlice, by omega⟩
      rw [Nat.mul_add] at steering ⊢
      have first := render_goes bus ppu more (steering.less (Nat.le_add_right _ _))
      have others := @ih fewer (by simp only [dotsPerSlice]; omega) _ (ppu.shown bus dot dotsPerSlice) countable
        ⟨dot + dotsPerSlice, more⟩ (by simp only; omega) steering.advance
      rw [Scheduler.advanced_advanced] at others
      simp only [shown, ← draw_append] at others
      exact .head first others
    · subst rest
      exact .single (render_ends bus countable (Nat.not_lt.mp more) steering)

/-- The end of a line where no frame is due. -/
theorem wraps (ppu : Ppu) {room : Nat} (steering : scheduler.Steering id room) :
    Goes id ({ ppu with continuation := .endOfLine }, bus, scheduler) (ppu.wrapped, bus, scheduler) := by
  refine ⟨[], ?_, steering.control⟩
  simp only [Chip.slice, slice, Context.synchronizeCpu_steered _ _ steering, bind, Except.bind]
  rfl

/-- A line as a whole, up to what is due at its end. -/
def drawn (ppu : Ppu) (bus : Bus) : Ppu := (ppu.shown bus 0 dotsPerLine).ended

theorem drawn_goes {ppu : Ppu} (poised : ppu.Poised) (steering : scheduler.Steering id Workload.frameUnits)
    (passes : scheduler.Passes id) :
    GoesOn id (ppu, bus, scheduler) (ppu.drawn bus, bus, scheduler.worked id Workload.frameUnits) := by
  have starts : Goes id (ppu, bus, scheduler) ({ ppu with continuation := .line 0 }, bus, scheduler.passed id) := by
    refine ⟨[], ?_, steering.passed.control⟩
    simp only [Chip.slice, slice, poised.idle, Context.point_passes _ _ steering passes, bind, Except.bind]
    rfl
  exact .head starts (dots_goes bus poised.countable rfl steering.passed)

theorem Poised.stops {ppu : Ppu} (poised : ppu.Poised) {room : Nat} (steering : scheduler.Steering id room)
    (stays : ¬ scheduler.Passes id) :
    Chip.slice ppu ⟨bus, scheduler, id, []⟩ = .ok (ppu, ⟨bus, scheduler.stopped id, id, []⟩) := by
  simp only [Chip.slice, slice, poised.idle, Context.point_stops _ _ steering stays, bind, Except.bind]
  rfl

theorem Poised.wrapped {ppu : Ppu} : ppu.wrapped.Poised := by
  refine ⟨rfl, ?_⟩
  simp only [Ppu.wrapped]
  split
  next => decide
  next within =>
    rw [UInt16.le_iff_toNat_le] at within
    simp only [linesPerFrame, UInt16.reduceToNat] at within
    omega

end Ppu

namespace Multiplier
variable {scheduler : Scheduler} {id : ThreadId} (bus : Bus)

/-- The command that the unit takes next, if there is one. -/
def pending? (unit : Multiplier) (bus : Bus) : Option Latch := bus.coprocessors[unit.index.toNat]?.filter (·.strobe)

/-- A whole command, or a wait for one. -/
def work (unit : Multiplier) (bus : Bus) : Multiplier × Bus :=
  match unit.pending? bus with
  | some command =>
    ({ unit with operands := command.input, operations := unit.operations + 1 },
      bus.modifyCoprocessor unit.index.toNat fun latch => { latch with strobe := false, output := result command.input })
  | none => (unit, bus)

theorem busy_goes (unit : Multiplier) {left : Nat} (remaining : UInt8) (counts : remaining.toNat = left + 1)
    (steering : scheduler.Steering id (left + 1)) :
    GoesOn id ({ unit with continuation := .busy remaining }, bus, scheduler)
      ({ unit with continuation := .complete }, bus, scheduler.advanced id (left + 1)) := by
  have cycle : ∀ (remaining : UInt8) {scheduler : Scheduler}, True → scheduler.Steering id 1 →
      Goes id ({ unit with continuation := .busy remaining }, bus, scheduler)
        (if 1 < remaining then { unit with continuation := .busy (remaining - 1) } else { unit with continuation := .complete }, bus,
          scheduler.advanced id 1) := by
    intro remaining scheduler _ steering
    obtain ⟨notice, stepped⟩ := Context.step_steered bus [] 1 steering
    refine ⟨[notice], ?_, steering.control⟩
    simp only [Chip.slice, slice, stepped, bind, Except.bind]
    split <;> rfl
  rw [← Nat.one_mul (left + 1)] at steering ⊢
  exact countdown_goes (fun remaining (_ : Unit) => { unit with continuation := .busy remaining })
    (fun _ => { unit with continuation := .complete }) (fun _ => ()) (fun _ => True) (fun _ _ => trivial)
    (fun remaining _ _ => cycle remaining) counts () trivial steering

theorem command_goes {unit : Multiplier} {command : Latch} (idle : unit.continuation = .idle) (pending : unit.pending? bus = some command)
    (steering : scheduler.Steering id idleCycles.toNat) (passes : scheduler.Passes id) :
    GoesOn id (unit, bus, scheduler) ({ unit with operands := command.input, operations := unit.operations + 1 },
      bus.modifyCoprocessor unit.index.toNat fun latch => { latch with strobe := false, output := result command.input },
      scheduler.worked id idleCycles.toNat) := by
  obtain ⟨index, operands, operations, continuation⟩ := unit
  cases idle
  have asked : ((Context.mk bus (scheduler.passed id) id []).latch? index.toNat).filter (·.strobe) = some command := pending
  have takes : Goes id (Multiplier.mk index operands operations .idle, bus, scheduler)
      (Multiplier.mk index command.input operations (.busy latency), bus.modifyCoprocessor index.toNat taken, scheduler.passed id) := by
    refine ⟨[.command index command.input], ?_, steering.passed.control⟩
    simp only [Chip.slice, slice, Context.point_passes _ _ steering passes, asked, bind, Except.bind]
    rfl
  have works := busy_goes (bus.modifyCoprocessor index.toNat taken) ⟨index, command.input, operations, .idle⟩ latency rfl steering.passed
  have written : (bus.modifyCoprocessor index.toNat taken).modifyCoprocessor index.toNat
      (fun latch => { latch with output := result command.input }) =
      bus.modifyCoprocessor index.toNat fun latch => { latch with strobe := false, output := result command.input } := by
    simp only [Bus.modifyCoprocessor, Array.modify_modify]
    rfl
  have completes : Goes id
      (Multiplier.mk index command.input operations .complete, bus.modifyCoprocessor index.toNat taken, scheduler.worked id idleCycles.toNat)
      (Multiplier.mk index command.input (operations + 1) .idle,
        bus.modifyCoprocessor index.toNat fun latch => { latch with strobe := false, output := result command.input },
        scheduler.worked id idleCycles.toNat) := by
    refine ⟨[], ?_, steering.worked.control⟩
    simp only [Chip.slice, slice, Context.synchronizeCpu_steered _ _ steering.worked, written, bind, Except.bind]
    rfl
  exact .head takes (works.tail completes)

theorem wait_goes {unit : Multiplier} (idle : unit.continuation = .idle) (free : unit.pending? bus = none)
    (steering : scheduler.Steering id idleCycles.toNat) (passes : scheduler.Passes id) :
    GoesOn id (unit, bus, scheduler) (unit, bus, scheduler.worked id idleCycles.toNat) := by
  obtain ⟨index, operands, operations, continuation⟩ := unit
  cases idle
  have quiet : ((Context.mk bus (scheduler.passed id) id []).latch? index.toNat).filter (·.strobe) = none := free
  obtain ⟨notice, stepped⟩ := Context.step_steered bus [] idleCycles steering.passed
  have waits : Goes id (Multiplier.mk index operands operations .idle, bus, scheduler)
      (Multiplier.mk index operands operations .waited, bus, scheduler.worked id idleCycles.toNat) := by
    refine ⟨[notice], ?_, steering.passed.control⟩
    simp only [Chip.slice, slice, Context.point_passes _ _ steering passes, quiet, stepped, bind, Except.bind]
    rfl
  refine .head waits (.single ⟨[], ?_, steering.worked.control⟩)
  simp only [Chip.slice, slice, Context.synchronizeCpu_steered _ _ steering.worked, bind, Except.bind]
  rfl

theorem stops {unit : Multiplier} (idle : unit.continuation = .idle) {room : Nat} (steering : scheduler.Steering id room)
    (stays : ¬ scheduler.Passes id) :
    Chip.slice unit ⟨bus, scheduler, id, []⟩ = .ok (unit, ⟨bus, scheduler.stopped id, id, []⟩) := by
  simp only [Chip.slice, slice, idle, Context.point_stops _ _ steering stays, bind, Except.bind]
  rfl

theorem work_goes {unit : Multiplier} (idle : unit.continuation = .idle) (steering : scheduler.Steering id idleCycles.toNat)
    (passes : scheduler.Passes id) :
    GoesOn id (unit, bus, scheduler) ((unit.work bus).1, (unit.work bus).2, scheduler.worked id idleCycles.toNat) := by
  unfold work
  split
  next command pending => exact command_goes bus idle pending steering passes
  next free => exact wait_goes bus idle free steering passes

theorem idle_work {unit : Multiplier} (idle : unit.continuation = .idle) (bus : Bus) : (unit.work bus).1.continuation = .idle := by
  unfold work
  split <;> exact idle

end Multiplier

namespace Rtc
variable {scheduler : Scheduler} {id : ThreadId} (bus : Bus)

/-- Between two ticks, with room to count one. -/
structure Poised (clock : Rtc) : Prop where
  idle : clock.ticked = false
  countable : clock.ticks.toNat + 1 < 2 ^ 16

def advanced (clock : Rtc) : Rtc :=
  if frequency ≤ (clock.ticks + 1).toUInt32 then { clock with ticks := 0, seconds := clock.seconds + 1 }
  else { clock with ticks := clock.ticks + 1 }

/-- A whole tick, with the command that waits in the latch. -/
def work (clock : Rtc) (bus : Bus) : Rtc × Bus :=
  match bus.coprocessors[clock.index.toNat]? with
  | none => (clock.advanced, bus)
  | some latch =>
    let set := clock.advanced.obey latch
    (set, bus.modifyCoprocessor clock.index.toNat fun latch => { latch with strobe := false, output := display set.seconds })

theorem tick_eq {clock : Rtc} (countable : clock.ticks.toNat + 1 < 2 ^ 16) : clock.tick = .ok clock.advanced := by
  have fits : Checked.add16 clock.ticks 1 = .ok (clock.ticks + 1) := by
    rw [Checked.add16, if_neg]
    rw [UInt16.lt_iff_toNat_lt, UInt16.toNat_add, UInt16.toNat_one, Nat.mod_eq_of_lt countable]
    omega
  simp only [tick, fits, advanced, bind, Except.bind]
  split <;> rfl

theorem ticked_advanced (clock : Rtc) : clock.advanced.ticked = clock.ticked := by
  unfold advanced
  split <;> rfl

theorem obey_ticked (clock : Rtc) (latch : Latch) : (clock.obey latch).ticked = clock.ticked := by
  unfold obey
  split <;> rfl

theorem index_advanced (clock : Rtc) : clock.advanced.index = clock.index := by
  unfold advanced
  split <;> rfl

theorem obey_index (clock : Rtc) (latch : Latch) : (clock.obey latch).index = clock.index := by
  unfold obey
  split <;> rfl

theorem Poised.advanced {clock : Rtc} (poised : clock.Poised) : clock.advanced.Poised := by
  refine ⟨clock.ticked_advanced.trans poised.idle, ?_⟩
  unfold Rtc.advanced
  split
  next =>
    simp only
    decide
  next short =>
    rw [UInt32.not_le, UInt32.lt_iff_toNat_lt, UInt16.toNat_toUInt32] at short
    simp only [frequency, UInt32.reduceToNat] at short
    exact Nat.lt_trans (Nat.succ_lt_succ short) (by decide)

theorem Poised.obey {clock : Rtc} (poised : clock.Poised) (latch : Latch) : (clock.obey latch).Poised := by
  refine ⟨(clock.obey_ticked latch).trans poised.idle, ?_⟩
  unfold Rtc.obey
  split
  next =>
    simp only
    decide
  next => exact poised.countable

theorem Poised.work {clock : Rtc} (poised : clock.Poised) (bus : Bus) : (clock.work bus).1.Poised := by
  unfold Rtc.work
  split
  next => exact poised.advanced
  next latch _ => exact poised.advanced.obey latch

theorem Poised.stops {clock : Rtc} (poised : clock.Poised) {room : Nat} (steering : scheduler.Steering id room)
    (stays : ¬ scheduler.Passes id) :
    Chip.slice clock ⟨bus, scheduler, id, []⟩ = .ok (clock, ⟨bus, scheduler.stopped id, id, []⟩) := by
  simp only [Chip.slice, slice, poised.idle, Context.point_stops _ _ steering stays, bind, Except.bind]
  rfl

theorem work_goes {clock : Rtc} (poised : clock.Poised) (steering : scheduler.Steering id 1) (passes : scheduler.Passes id) :
    GoesOn id (clock, bus, scheduler) ((clock.work bus).1, (clock.work bus).2, scheduler.worked id 1) := by
  obtain ⟨notice, stepped⟩ := Context.step_steered bus [] 1 steering.passed
  have ticks : Goes id (clock, bus, scheduler) ({ (clock.work bus).1 with ticked := true }, (clock.work bus).2, scheduler.worked id 1) := by
    refine ⟨[notice], ?_, steering.passed.control⟩
    simp only [Chip.slice, slice, poised.idle, Context.point_passes _ _ steering passes, stepped, tick_eq poised.countable, work, bind, Except.bind,
      Bool.false_eq_true, if_false, Bool.not_true, Context.latch?, index_advanced]
    cases bus.coprocessors[clock.index.toNat]? with
    | none | some =>
      simp only [obey_index, index_advanced]
      rfl
  have ends : Goes id ({ (clock.work bus).1 with ticked := true }, (clock.work bus).2, scheduler.worked id 1)
      ((clock.work bus).1, (clock.work bus).2, scheduler.worked id 1) := by
    refine ⟨[], ?_, steering.worked.control⟩
    simp only [Chip.slice, slice, Context.synchronizeCpu_steered _ _ steering.worked, bind, Except.bind]
    rw [← (poised.work bus).idle]
    rfl
  exact .head ticks (.single ends)

end Rtc
namespace Coprocessor
variable {scheduler : Scheduler} {id : ThreadId} (bus : Bus)

def Poised : Coprocessor → Prop
  | multiplier unit => unit.continuation = .idle
  | rtc clock => clock.Poised

def duration : Coprocessor → Nat
  | multiplier _ => Multiplier.idleCycles.toNat
  | rtc _ => 1

def work (chip : Coprocessor) (bus : Bus) : Coprocessor × Bus :=
  match chip with
  | multiplier unit => let (unit, bus) := unit.work bus; (multiplier unit, bus)
  | rtc clock => let (clock, bus) := clock.work bus; (rtc clock, bus)

theorem Poised.work {chip : Coprocessor} (poised : chip.Poised) (bus : Bus) : (chip.work bus).1.Poised := by
  cases chip with
  | multiplier unit => exact Multiplier.idle_work poised bus
  | rtc clock => exact Rtc.Poised.work poised bus

theorem Poised.stops {chip : Coprocessor} (poised : chip.Poised) {room : Nat} (steering : scheduler.Steering id room)
    (stays : ¬ scheduler.Passes id) :
    Chip.slice chip ⟨bus, scheduler, id, []⟩ = .ok (chip, ⟨bus, scheduler.stopped id, id, []⟩) := by
  change slice chip _ = _
  cases chip with
  | multiplier unit =>
    rw [slice, Multiplier.stops _ poised steering stays]
    rfl
  | rtc clock =>
    rw [slice, Rtc.Poised.stops _ poised steering stays]
    rfl

theorem work_goes {chip : Coprocessor} (poised : chip.Poised) (steering : scheduler.Steering id chip.duration)
    (passes : scheduler.Passes id) :
    GoesOn id (chip, bus, scheduler) ((chip.work bus).1, (chip.work bus).2, scheduler.worked id chip.duration) := by
  cases chip with
  | multiplier unit =>
    refine (Multiplier.work_goes bus poised steering passes).lift (fun (unit, rest) => (multiplier unit, rest)) ?_
    rintro ⟨unit, bus, scheduler⟩ ⟨unit', bus', scheduler'⟩ ⟨notices, sliced, control⟩
    refine ⟨notices, ?_, control⟩
    change Coprocessor.slice (multiplier unit) _ = _
    rw [slice, sliced]
    rfl
  | rtc clock =>
    refine (Rtc.work_goes bus poised steering passes).lift (fun (clock, rest) => (rtc clock, rest)) ?_
    rintro ⟨clock, bus, scheduler⟩ ⟨clock', bus', scheduler'⟩ ⟨notices, sliced, control⟩
    refine ⟨notices, ?_, control⟩
    change Coprocessor.slice (rtc clock) _ = _
    rw [slice, sliced]
    rfl

end Coprocessor
end MultiClock
