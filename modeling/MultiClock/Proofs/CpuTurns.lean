import MultiClock.Chip.Cpu
import MultiClock.Proofs.ChipActions

/-! The slices of the reference processor. It alone hands control to chips that are behind: once before
it touches the ports of one of them, and at the end of a scanline to each of them in order. -/

namespace MultiClock.Cpu

/-- Clock units that may have passed since the dependents caught up, between two instructions. -/
def restUnits : Loads → Nat
  | .own => 1363
  | .any => 2728

/-- The same, after the cycles of an instruction. -/
def workUnits : Loads → Nat
  | .own => 1491
  | .any => 4768

structure Fits (loads : Loads) (count : UInt8) (cpu : Cpu) : Prop where
  coprocessors : cpu.coprocessors = count
  units : match cpu.continuation with
    | .idle | .catchup _ => cpu.catchupUnits.toNat ≤ restUnits loads
    | .execute _ _ cycles => cpu.catchupUnits.toNat + 8 * max cycles.toNat 1 ≤ workUnits loads
    | .access _ _ _ => cpu.catchupUnits.toNat ≤ workUnits loads

/-- What a slice does to the continuation, and which chip it hands control to. -/
inductive Moves (scheduler : Scheduler) (before after : Cpu) : Action → Prop
  | stop (idle : before.continuation = .idle) (same : after = before) : Moves scheduler before after .stop
  | pass (idle : before.continuation = .idle) (opcode : Opcode) (operand : UInt8)
      (fetched : after.continuation = .execute opcode operand (opcode.cycles operand))
      (units : after.catchupUnits = before.catchupUnits) : Moves scheduler before after .pass
  | step (opcode : Opcode) (operand cycles : UInt8) (executing : before.continuation = .execute opcode operand cycles)
      (spent : after.continuation =
        if 1 < cycles then .execute opcode operand (cycles - 1) else .access opcode operand false)
      (units : after.catchupUnits.toNat = before.catchupUnits.toNat + 8) : Moves scheduler before after (.step cycleUnits)
  | complete (opcode : Opcode) (operand : UInt8) (synchronized : Bool)
      (accessing : before.continuation = .access opcode operand synchronized)
      (completed : after.continuation = .idle ∧ after.catchupUnits = before.catchupUnits ∨
        after.continuation = .catchup 0 ∧ after.catchupUnits = 0)
      (level : synchronized = false → ∀ other, before.accessed opcode operand = some other → 0 ≤ scheduler.time other) :
      Moves scheduler before after .rest
  | ask (opcode : Opcode) (operand : UInt8) (other : ThreadId) (accessing : before.continuation = .access opcode operand false)
      (accessed : before.accessed opcode operand = some other) (behind : scheduler.time other < 0)
      (asked : after.continuation = .access opcode operand true) (units : after.catchupUnits = before.catchupUnits) :
      Moves scheduler before after (.resume other)
  | call (next later : UInt8) (level : List ThreadId) (other : ThreadId) (rest : List ThreadId)
      (catching : before.continuation = .catchup next)
      (remaining : before.dependents.drop next.toNat = level ++ other :: rest) (caught : ∀ id ∈ level, 0 ≤ scheduler.time id)
      (behind : scheduler.time other < 0) (called : after.continuation = .catchup later)
      (left : before.dependents.drop later.toNat = rest) (units : after.catchupUnits = before.catchupUnits) :
      Moves scheduler before after (.resume other)
  | caughtUp (next : UInt8) (catching : before.continuation = .catchup next) (idle : after.continuation = .idle)
      (caught : ∀ id ∈ before.dependents.drop next.toNat, 0 ≤ scheduler.time id)
      (units : after.catchupUnits = before.catchupUnits) : Moves scheduler before after .rest

/-- The reference's slice is ready: it executes, its registers are within their bounds, and there is a
thread for every dependent. -/
structure Prepared (cx : Context) (loads : Loads) (count : UInt8) (cpu : Cpu) : Prop where
  ready : cx.Ready
  side : cx.thread = .cpu
  fits : cpu.Fits loads count
  few : count.toNat ≤ 4
  threads : ∀ id ∈ cpu.dependents, id.index < cx.scheduler.threads.size

/-- What the reference's slice comes to. -/
def Turns (cx : Context) (loads : Loads) (count : UInt8) (cpu : Cpu) (result : Cpu × Context) : Prop :=
  ∃ action, cx.Does action result.2 ∧ cpu.Moves cx.scheduler result.1 action ∧
    result.1.coprocessors = cpu.coprocessors ∧ (cpu.Fits loads count → result.1.Fits loads count)

theorem dependents_congr {before after : Cpu} (same : after.coprocessors = before.coprocessors) : after.dependents = before.dependents := by
  rw [dependents, same, dependents]

section moves
variable {scheduler : Scheduler} {before after : Cpu} {action : Action} (moves : before.Moves scheduler after action)
include moves

/-- Only a reference that executes an instruction takes time. -/
theorem Moves.executing_or_timeless :
    (∃ opcode operand cycles, before.continuation = .execute opcode operand cycles ∧ action = .step cycleUnits) ∨ action.units = 0 := by
  cases moves with
  | step opcode operand cycles executing => exact .inl ⟨opcode, operand, cycles, executing, rfl⟩
  | stop | pass | complete | ask | call | caughtUp => exact .inr rfl

/-- The units since the others were let catch up are counted until they are let catch up again. -/
theorem Moves.counts :
    after.catchupUnits.toNat = before.catchupUnits.toNat + action.units ∨ after.continuation = .catchup 0 := by
  cases moves with
  | stop _ same => exact .inl (by rw [same]; rfl)
  | step _ _ _ _ _ units => exact .inl units
  | complete _ _ _ _ completed =>
    rcases completed with ⟨_, units⟩ | ⟨due, _⟩
    · exact .inl (congrArg UInt32.toNat units)
    · exact .inr due
  | pass _ _ _ _ units | ask _ _ _ _ _ _ _ units | call _ _ _ _ _ _ _ _ _ _ _ units | caughtUp _ _ _ _ units =>
    exact .inl (congrArg UInt32.toNat units)

/-- A chip that is to be let catch up is visited, unless others come first. -/
theorem Moves.visits (same : after.coprocessors = before.coprocessors) {next : UInt8} (catching : before.continuation = .catchup next)
    {id : ThreadId} (awaited : id ∈ before.dependents.drop next.toNat) :
    action = .resume id ∨ (∃ later, after.continuation = .catchup later ∧ id ∈ after.dependents.drop later.toNat) ∨
      action.units = 0 ∧ 0 ≤ scheduler.time id := by
  cases moves with
  | stop busy | pass busy | step _ _ _ busy | complete _ _ _ busy | ask _ _ _ busy => cases busy.symm.trans catching
  | call reached later level other rest caught remaining passed _ called left =>
    cases caught.symm.trans catching
    rw [remaining, List.mem_append, List.mem_cons] at awaited
    rcases awaited with member | rfl | member
    · exact .inr (.inr ⟨rfl, passed id member⟩)
    · exact .inl rfl
    · refine .inr (.inl ⟨later, called, ?_⟩)
      rw [dependents_congr same, left]
      exact member
  | caughtUp reached caught _ passed =>
    cases caught.symm.trans catching
    exact .inr (.inr ⟨rfl, passed id awaited⟩)

end moves

theorem length_dependents (cpu : Cpu) : cpu.dependents.length = 2 + cpu.coprocessors.toNat := by
  simp only [dependents, List.length_cons, List.length_map, List.length_range]
  omega

theorem index_of_dependent {cpu : Cpu} {id : ThreadId} (member : id ∈ cpu.dependents) :
    id ≠ .cpu ∧ id.index < 3 + cpu.coprocessors.toNat := by
  simp only [dependents, List.mem_cons, List.mem_map, List.mem_range] at member
  rcases member with rfl | rfl | ⟨position, inside, rfl⟩
  · exact ⟨by simp, by simp only [ThreadId.index]; omega⟩
  · exact ⟨by simp, by simp only [ThreadId.index]; omega⟩
  · refine ⟨by simp, ?_⟩
    simp only [ThreadId.index, UInt8.toNat_ofNat']
    omega

theorem accessed_mem {cpu : Cpu} {opcode : Opcode} {operand : UInt8} {other : ThreadId}
    (accessed : cpu.accessed opcode operand = some other) : other ∈ cpu.dependents := by
  have selects : ∀ index, cpu.selected operand = some index → .coprocessor index ∈ cpu.dependents := by
    intro index chosen
    unfold selected at chosen
    split at chosen
    next => cases chosen
    next some_coprocessors =>
      cases chosen
      have positive : 0 < cpu.coprocessors := UInt8.pos_iff_ne_zero.mpr some_coprocessors
      have inside := UInt8.lt_iff_toNat_lt.mp (UInt8.mod_lt (operand >>> 2) positive)
      simp only [dependents, List.mem_cons, reduceCtorEq, List.mem_map, List.mem_range, false_or]
      exact ⟨_, inside, congrArg ThreadId.coprocessor UInt8.ofNat_toNat⟩
  cases opcode with
  | apuWrite | apuRead =>
    cases accessed
    exact List.mem_cons_self
  | copWrite | copRead =>
    obtain ⟨index, selected, rfl⟩ := Option.map_eq_some_iff.mp accessed
    exact selects index selected
  | add | store | shift | wait => cases accessed

/-- Catching up stops at the first chip that is behind. -/
theorem catchUp_meets {calm : Prop} (loads : Loads) (count : UInt8) (cpu : Cpu) (cx : Context) (remaining : List ThreadId) (next : UInt8)
    (here : cpu.dependents.drop next.toNat = remaining) :
    Meets (Excused (Prepared cx loads count cpu) calm)
      (fun result => (∃ level other rest later, remaining = level ++ other :: rest ∧
          (∀ id ∈ level, 0 ≤ cx.scheduler.time id) ∧ cx.scheduler.time other < 0 ∧ cpu.dependents.drop (UInt8.toNat later) = rest ∧ result.1 = { cpu with continuation := .catchup later } ∧
          cx.Does (.resume other) result.2) ∨
        result.1 = { cpu with continuation := .idle } ∧ result.2 = cx ∧ ∀ id ∈ remaining, 0 ≤ cx.scheduler.time id)
      (cpu.catchUp next remaining cx) := by
  -- The number of the next dependent fits a byte, since there are fewer dependents than that.
  induction remaining generalizing next with
  | nil => exact .pure (.inr ⟨rfl, rfl, by simp⟩)
  | cons dependent rest ih =>
    have inside : next.toNat < cpu.dependents.length := by
      have := congrArg List.length here
      simp only [List.length_drop, List.length_cons] at this
      omega
    refine ((Checked.add8_meets next 1).permit ?_).bind fun following sum => ?_
    · rintro _ ⟨rfl, beyond⟩
      refine .unready (by simp) fun set => ?_
      rw [length_dependents, set.fits.coprocessors] at inside
      have few := set.few
      simp only [UInt8.reduceToNat] at beyond
      omega
    · have after : cpu.dependents.drop following.toNat = rest := by
        rw [sum, show (1 : UInt8).toNat = 1 from rfl, ← List.tail_drop, here]
        rfl
      have member : dependent ∈ cpu.dependents := List.mem_of_mem_drop (here ▸ List.mem_cons_self)
      refine ((cx.synchronize_asks dependent).permit
        (Excused.of_ready fun set => ⟨set.ready, set.side, set.threads dependent member⟩)).bind ?_
      rintro ⟨resumed, last⟩ ⟨⟨rfl, does⟩ | ⟨rfl, same⟩, behind⟩
      · exact .pure (.inl ⟨[], dependent, rest, following, rfl, by simp, behind.mp rfl, after, rfl, does⟩)
      · have level : 0 ≤ cx.scheduler.time dependent := Int.not_lt.mp (mt behind.mpr Bool.false_ne_true)
        simp only at same ⊢
        rw [same]
        refine (ih following after).mono ?_
        rintro result (⟨passed, other, rest, later, rfl, caught, found⟩ | ⟨idle, same, caught⟩)
        · exact .inl ⟨dependent :: passed, other, rest, later, rfl, List.forall_mem_cons.mpr ⟨level, caught⟩, found⟩
        · exact .inr ⟨idle, same, List.forall_mem_cons.mpr ⟨level, caught⟩⟩

theorem perform_keeps (cpu : Cpu) (opcode : Opcode) (operand : UInt8) (bus : Bus) :
    (cpu.perform opcode operand bus).1.catchupUnits = cpu.catchupUnits ∧
      (cpu.perform opcode operand bus).1.coprocessors = cpu.coprocessors ∧
      (cpu.perform opcode operand bus).2.coprocessors.size = bus.coprocessors.size := by
  cases opcode with
  | copWrite | copRead =>
    simp only [perform]
    split <;> simp
  | _ => exact ⟨rfl, rfl, rfl⟩

theorem complete_turns (loads : Loads) (count : UInt8) (cpu : Cpu) (opcode : Opcode) (operand : UInt8)
    (synchronized : Bool) (cx : Context) (accessing : cpu.continuation = .access opcode operand synchronized)
    (level : synchronized = false → ∀ other, cpu.accessed opcode operand = some other → 0 ≤ cx.scheduler.time other) :
    Turns cx loads count cpu (cpu.complete opcode operand cx) := by
  obtain ⟨bus, scheduler, thread, notices⟩ := cx
  obtain ⟨units, coprocessors, latches⟩ := cpu.perform_keeps opcode operand bus
  have threshold : 1363 ≤ restUnits loads := by cases loads <;> decide
  simp only [complete]
  generalize cpu.perform opcode operand bus = performed at units coprocessors latches ⊢
  obtain ⟨performed, written⟩ := performed
  refine ⟨.rest, (Context.Does.rest _).withBus latches, ?_⟩
  simp only at units coprocessors latches ⊢
  split
  next due =>
    exact ⟨.complete opcode operand synchronized accessing (.inr ⟨rfl, rfl⟩) level, coprocessors,
      fun fits => ⟨coprocessors.trans fits.coprocessors, Nat.zero_le _⟩⟩
  next early =>
    refine ⟨.complete opcode operand synchronized accessing (.inl ⟨rfl, units⟩) level, coprocessors,
      fun fits => ⟨coprocessors.trans fits.coprocessors, ?_⟩⟩
    have early := mt UInt32.le_iff_toNat_le.mpr early
    simp only [catchupThreshold, UInt32.reduceToNat] at early ⊢
    omega

theorem cycles_le (opcode : Opcode) (operand : UInt8) : (opcode.cycles operand).toNat ≤ 16 := by
  have small : operand.toNat % 16 < 16 := Nat.mod_lt _ (by decide)
  cases opcode <;> simp only [Opcode.cycles, UInt8.reduceToNat, UInt8.toNat_add, UInt8.toNat_mod]
  all_goals omega

section slices
variable {loads : Loads} {count : UInt8} {cpu : Cpu} {cx : Context}

theorem idle_turns (at_work : cpu.continuation = .idle) :
    Meets (Excused (Prepared cx loads count cpu) cx.Calm) (Turns cx loads count cpu) (Chip.slice cpu cx) := by
  simp only [Chip.slice, slice, at_work]
  refine (cx.synchronizePoint_does.permit (Excused.of_ready Prepared.ready)).bind ?_
  rintro ⟨passes, after⟩ does
  cases passes with
  | false => exact .pure ⟨_, does, .stop at_work rfl, rfl, id⟩
  | true =>
    refine .pure ⟨_, does, .pass at_work _ _ rfl rfl, rfl, fun fits => ⟨fits.coprocessors, ?_⟩⟩
    have rested := fits.units
    simp only [at_work] at rested
    have room : restUnits loads + 128 ≤ workUnits loads := by cases loads <;> decide
    have short := cycles_le (Opcode.decode (after.bus.readWram cpu.pc ^^^ (shifted cpu.lfsr).toUInt8))
      (after.bus.readWram (cpu.pc + 1))
    simp only [if_true, fetch]
    omega

theorem execute_turns {opcode : Opcode} {operand cycles : UInt8} (at_work : cpu.continuation = .execute opcode operand cycles) :
    Meets (Excused (Prepared cx loads count cpu) cx.Calm) (Turns cx loads count cpu) (Chip.slice cpu cx) := by
  simp only [Chip.slice, slice, at_work]
  refine ((cx.step_does cycleUnits).permit (Excused.of_ready Prepared.ready)).bind fun after does => ?_
  refine ((Checked.add32_meets cpu.catchupUnits cycleUnits).permit ?_).bind fun units sum => ?_
  · rintro _ ⟨rfl, beyond⟩
    refine .unready (by simp) fun set => ?_
    have working := set.fits.units
    have bound : workUnits loads ≤ 4768 := by cases loads <;> decide
    simp only [at_work] at working
    simp only [cycleUnits, UInt32.reduceToNat] at beyond
    omega
  · refine .pure ⟨_, does, .step opcode operand cycles at_work rfl sum, rfl, fun fits => ⟨fits.coprocessors, ?_⟩⟩
    have working := fits.units
    simp only [at_work] at working
    simp only [cycleUnits, UInt32.reduceToNat] at sum
    by_cases several : 1 < cycles
    · obtain ⟨more, fewer⟩ := counted_down several
      simp only [if_pos several, fewer]
      omega
    · simp only [if_neg several]
      omega

/-- The instruction touches its ports, unless the chip behind them has to catch up first. -/
theorem access_turns {opcode : Opcode} {operand : UInt8} {synchronized : Bool}
    (at_work : cpu.continuation = .access opcode operand synchronized) :
    Meets (Excused (Prepared cx loads count cpu) cx.Calm) (Turns cx loads count cpu) (Chip.slice cpu cx) := by
  simp only [Chip.slice, slice, at_work]
  split
  next untouched =>
    refine .pure (complete_turns loads count cpu opcode operand synchronized cx at_work fun fresh other accessed => ?_)
    rw [if_neg (Bool.eq_false_iff.mp fresh), accessed] at untouched
    cases untouched
  next other accessed =>
    have unsynchronized : synchronized = false := by
      cases synchronized <;> simp at accessed ⊢
    cases unsynchronized
    have accessed : cpu.accessed opcode operand = some other := accessed
    have member : other ∈ cpu.dependents := accessed_mem accessed
    refine ((cx.synchronize_asks other).permit
      (Excused.of_ready fun set => ⟨set.ready, set.side, set.threads other member⟩)).bind ?_
    rintro ⟨resumed, after⟩ ⟨⟨rfl, does⟩ | ⟨rfl, same⟩, behind⟩
    · refine .pure ⟨_, does, .ask opcode operand other at_work accessed (behind.mp rfl) rfl rfl, rfl, fun fits => ?_⟩
      have working := fits.units
      simp only [at_work] at working
      exact ⟨fits.coprocessors, working⟩
    · simp only at same ⊢
      rw [same]
      refine .pure (complete_turns loads count cpu opcode operand false cx at_work fun _ touched same => ?_)
      cases accessed.symm.trans same
      exact Int.not_lt.mp (mt behind.mpr Bool.false_ne_true)

theorem catchup_turns {next : UInt8} (at_work : cpu.continuation = .catchup next) :
    Meets (Excused (Prepared cx loads count cpu) cx.Calm) (Turns cx loads count cpu) (Chip.slice cpu cx) := by
  simp only [Chip.slice, slice, at_work]
  refine (catchUp_meets loads count cpu cx _ next rfl).mono ?_
  have kept : ∀ continuation, continuation = .idle ∨ (∃ later, continuation = .catchup later) →
      cpu.Fits loads count → Fits loads count { cpu with continuation } := by
    rintro continuation (rfl | ⟨later, rfl⟩) fits
    all_goals
      have resting := fits.units
      simp only [at_work] at resting
      exact ⟨fits.coprocessors, resting⟩
  rintro ⟨later, after⟩ (⟨level, other, rest, position, remaining, caught, behind, left, rfl, does⟩ | ⟨rfl, rfl, caught⟩)
  · exact ⟨_, does, .call next position level other rest at_work remaining caught behind rfl left rfl, rfl,
      kept _ (.inr ⟨position, rfl⟩)⟩
  · exact ⟨_, .rest _, .caughtUp next at_work rfl caught rfl, rfl, kept _ (.inl rfl)⟩

end slices

theorem slice_turns (loads : Loads) (count : UInt8) (cpu : Cpu) (cx : Context) :
    Meets (Excused (Prepared cx loads count cpu) cx.Calm) (Turns cx loads count cpu) (Chip.slice cpu cx) := by
  cases at_work : cpu.continuation with
  | idle => exact idle_turns at_work
  | execute => exact execute_turns at_work
  | access => exact access_turns at_work
  | catchup => exact catchup_turns at_work

end MultiClock.Cpu
