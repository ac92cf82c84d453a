import MultiClock.Machine.Board
import MultiClock.Proofs.CpuTurns
import MultiClock.Proofs.DependentTurns
import MultiClock.Proofs.SerializerLaws

/-! The visitors of the chips and of the bus. In any use a visitor keeps the registers within their bounds
and leaves what it does not pass over; only a load can change the work in flight. A reader that starts from
a chip of the same kind ends up with the writer's chip. -/

namespace MultiClock

open Visit

/-- Where snapshots are never those of other machines, visitors only count and write. -/
def Permitted (loads : Loads) (mode : Serializer.Mode) : Prop := loads = .own → mode ≠ .load

variable {mode : Serializer.Mode} {loads : Loads}

namespace Latch

theorem yields (latch : Latch) : Yields mode 9 (Serializable.serialize latch) fun _ => True :=
  .of_size (.bind (.bytes _) fun _ _ => .bind (.bytes _) fun _ _ => .bind (.boolean _) fun _ _ => .pure trivial) rfl

theorem transfers (latch base : Latch) :
    Transfers (Serializable.serialize latch) (Serializable.serialize base) latch latch :=
  .bind (.bytes _ _) (.bind (.bytes _ _) (.bind (.boolean _ _) (.pure _ _)))

end Latch

namespace Bus

/-- Bytes of a bus with so many latches. -/
def visitSize (count : Nat) : Nat := 0x2000 + (9 + (count * 9 + 0))

theorem yields (bus : Bus) : Yields mode (visitSize bus.coprocessors.size) (Serializable.serialize bus) fun later =>
    later.coprocessors.size = bus.coprocessors.size := by
  refine .bind (.bytes _) fun _ _ => .bind (Latch.yields _) fun _ _ => .bind ?_ fun later held => .pure held
  exact (Yields.array bus.coprocessors fun latch _ => latch.yields).mono fun _ => And.left

theorem transfers {bus base : Bus} (latches : bus.coprocessors.size = base.coprocessors.size) :
    Transfers (Serializable.serialize bus) (Serializable.serialize base) bus bus :=
  .bind (.bytes _ _) (.bind (Latch.transfers _ _)
    (.bind (.array latches fun _ latch base _ _ => latch.transfers base) (.pure _ _)))

end Bus

/-- A chip is taken over if its registers are, and its continuation is too or is the same already. -/
theorem Chip.visit_transfers {χ : Type} [Chip χ] {stack : Bool} {chip base taken : χ}
    (registers : Transfers (Chip.serialize chip) (Chip.serialize base) chip taken)
    (continuation : Transfers (Chip.serializeStack chip) (Chip.serializeStack taken) chip chip)
    (work : stack = true ∨ taken = chip) : Transfers (Chip.visit stack chip) (Chip.visit stack base) chip chip := by
  refine registers.bind ?_
  cases stack with
  | true => exact continuation
  | false =>
    rw [work.resolve_left Bool.false_ne_true]
    exact .pure _ _

namespace Cpu

theorem Continuation.decode?_encode (continuation : Continuation) :
    decode? continuation.encode.1 continuation.encode.2.1 continuation.encode.2.2.1 continuation.encode.2.2.2 =
      some continuation := by
  cases continuation with
  | idle | catchup => rfl
  | execute opcode => cases opcode <;> rfl
  | access opcode operand synchronized => cases opcode <;> cases synchronized <;> rfl

theorem Continuation.yields (continuation : Continuation) :
    Yields mode 4 continuation.serialize fun later => mode ≠ .load → later = continuation := by
  simp only [serialize]
  refine .of_size (.bind (.word _) fun tag same => .bind (.word _) fun code matched => .bind (.word _) fun operand alike =>
    .bind (.word _) fun extra equal => (?_ : Yields mode 0 _ _)) rfl
  have known : mode ≠ .load → decode? tag code operand extra = some continuation := fun writing => by
    rw [same writing, matched writing, alike writing, equal writing, continuation.decode?_encode]
  exact .decoded known "cpu continuation" idle (by cases decode? tag code operand extra <;> rfl)

theorem Continuation.transfers (continuation base : Continuation) :
    Transfers continuation.serialize base.serialize continuation continuation := by
  simp only [serialize]
  refine .bind (.word _ _) (.bind (.word _ _) (.bind (.word _ _) (.bind (.word _ _) ?_)))
  rw [continuation.decode?_encode]
  exact .pure _ _

theorem registers_yield (cpu : Cpu) : Yields mode 20 (Chip.serialize cpu) fun later =>
    later.coprocessors = cpu.coprocessors ∧ later.continuation = cpu.continuation ∧
      later.catchupUnits.toNat ≤ restUnits .any ∧ (mode ≠ .load → later.catchupUnits.toNat ≤ cpu.catchupUnits.toNat) := by
  simp only [Chip.serialize, serialize]
  refine .of_size (.bind (.word _) fun _ _ => .bind (.word _) fun _ _ => .bind (.word _) fun _ _ =>
    .bind (.word _) fun _ _ => .bind (.word _) fun units same => .bind (.word _) fun _ _ =>
    .bind (.require _ _ _ _) fun later checked => .pure ⟨rfl, rfl, ?_⟩) rfl
  rcases checked with ⟨small, rfl⟩ | ⟨_, rfl⟩
  · exact ⟨UInt32.le_iff_toNat_le.mp (of_decide_eq_true small), fun writing =>
      Nat.le_of_eq (congrArg UInt32.toNat (same writing))⟩
  · exact ⟨Nat.zero_le _, fun _ => Nat.zero_le _⟩

/-- Fewer units with the same work fit as before, and after a load any work fits. -/
theorem Fits.renewed {cpu later : Cpu} {count : UInt8} (permitted : Permitted loads mode) (fits : cpu.Fits loads count)
    (coprocessors : later.coprocessors = cpu.coprocessors) (bound : later.catchupUnits.toNat ≤ restUnits .any)
    (less : mode ≠ .load → later.catchupUnits.toNat ≤ cpu.catchupUnits.toNat)
    (kept : mode ≠ .load → later.continuation = cpu.continuation) : later.Fits loads count := by
  refine ⟨coprocessors.trans fits.coprocessors, ?_⟩
  cases loads with
  | own =>
    have units := fits.units
    have less := less (permitted rfl)
    rw [kept (permitted rfl)]
    cases at_work : cpu.continuation <;> simp only [at_work] at units ⊢ <;> omega
  | any =>
    have rest : restUnits .any = 2728 := rfl
    have work : workUnits .any = 4768 := rfl
    cases at_work : later.continuation with
    | idle | catchup => exact bound
    | access =>
      simp only
      omega
    | execute opcode operand cycles =>
      have short := cycles.toNat_lt
      simp only
      omega

/-- Units of a machine that loads only its own snapshots may be in any snapshot. -/
theorem Fits.bound {cpu : Cpu} {count : UInt8} (fits : cpu.Fits .own count) : cpu.catchupUnits.toNat ≤ restUnits .any := by
  have units := fits.units
  have rest : restUnits .own = 1363 := rfl
  have work : workUnits .own = 1491 := rfl
  have most : restUnits .any = 2728 := rfl
  cases at_work : cpu.continuation <;> simp only [at_work] at units <;> omega

theorem visit_yields (stack : Bool) (cpu : Cpu) (count : UInt8) (permitted : Permitted loads mode) :
    Yields mode (20 + if stack then 4 else 0) (Chip.visit stack cpu) fun later =>
      (cpu.Fits loads count → later.Fits loads count) ∧ later.catchupUnits.toNat ≤ restUnits .any ∧
        (mode ≠ .load → later.continuation = cpu.continuation) := by
  refine cpu.registers_yield.bind ?_
  rintro later ⟨coprocessors, continuation, bound, less⟩
  cases stack with
  | false =>
    have kept : mode ≠ .load → later.continuation = cpu.continuation := fun _ => continuation
    exact .pure ⟨fun fits => fits.renewed permitted coprocessors bound less kept, bound, kept⟩
  | true =>
    refine (Continuation.yields _).bind fun moved same => .pure ?_
    have kept : mode ≠ .load → moved = cpu.continuation := fun writing => (same writing).trans continuation
    exact ⟨fun fits => fits.renewed permitted coprocessors bound less kept, bound, kept⟩

theorem transfers {stack : Bool} {cpu base : Cpu} (bound : cpu.catchupUnits.toNat ≤ restUnits .any)
    (count : base.coprocessors = cpu.coprocessors) (work : stack = true ∨ base.continuation = cpu.continuation) :
    Transfers (Chip.visit stack cpu) (Chip.visit stack base) cpu cpu := by
  have registers : Transfers (Chip.serialize cpu) (Chip.serialize base) cpu { cpu with continuation := base.continuation } := by
    have accepted : decide (cpu.catchupUnits ≤ 2 * catchupThreshold) = true :=
      decide_eq_true (UInt32.le_iff_toNat_le.mpr bound)
    have kept : { cpu with continuation := base.continuation } = { base with
        a := cpu.a, x := cpu.x, pc := cpu.pc, lfsr := cpu.lfsr, catchupUnits := cpu.catchupUnits,
        instructions := cpu.instructions } := by
      rw [count]
    rw [kept]
    simp only [Chip.serialize, serialize]
    exact .bind (.word _ _) (.bind (.word _ _) (.bind (.word _ _) (.bind (.word _ _) (.bind (.word _ _)
      (.bind (.word _ _) (.bind (.require accepted _ _) (.pure _ _)))))))
  exact Chip.visit_transfers registers ((Continuation.transfers _ _).bind (.pure _ _)) (work.imp_right fun same => by rw [same])

end Cpu

namespace Smp

theorem Continuation.decode?_encode (continuation : Continuation) :
    decode? continuation.encode.1 continuation.encode.2.1 continuation.encode.2.2.1 continuation.encode.2.2.2 =
      some continuation := by
  cases continuation with
  | idle => rfl
  | execute opcode => cases opcode <;> rfl
  | access opcode operand synchronized => cases opcode <;> cases synchronized <;> rfl

theorem Continuation.yields (continuation : Continuation) :
    Yields mode 4 continuation.serialize fun later => mode ≠ .load → later = continuation := by
  simp only [serialize]
  refine .of_size (.bind (.word _) fun tag same => .bind (.word _) fun code matched => .bind (.word _) fun operand alike =>
    .bind (.word _) fun extra equal => (?_ : Yields mode 0 _ _)) rfl
  have known : mode ≠ .load → decode? tag code operand extra = some continuation := fun writing => by
    rw [same writing, matched writing, alike writing, equal writing, continuation.decode?_encode]
  exact .decoded known "smp continuation" idle (by cases decode? tag code operand extra <;> rfl)

theorem Continuation.transfers (continuation base : Continuation) :
    Transfers continuation.serialize base.serialize continuation continuation := by
  simp only [serialize]
  refine .bind (.word _ _) (.bind (.word _ _) (.bind (.word _ _) (.bind (.word _ _) ?_)))
  rw [continuation.decode?_encode]
  exact .pure _ _

theorem registers_yield (smp : Smp) : Yields mode 8205 (Chip.serialize smp) fun later =>
    later.Bounded ∧ later.continuation = smp.continuation := by
  simp only [Chip.serialize, serialize]
  refine .of_size (.bind (.bytes _) fun _ _ => .bind (.word _) fun _ _ => .bind (.word _) fun _ _ =>
    .bind (.word _) fun _ _ => .bind (.word _) fun _ _ => .bind (.vector .word _) fun _ _ => .bind (.word _) fun _ _ =>
    .bind (.require _ _ _ _) fun count few => .bind (.require _ _ _ _) fun elapsed early => .pure ⟨⟨?_, ?_⟩, rfl⟩) rfl
  · rcases early with ⟨early, rfl⟩ | ⟨_, rfl⟩
    · exact of_decide_eq_true early
    · exact (by decide : (0 : UInt32) < sampleUnits)
  · rcases few with ⟨few, rfl⟩ | ⟨_, rfl⟩
    · exact of_decide_eq_true few
    · exact Nat.zero_le _

theorem visit_yields (stack : Bool) (smp : Smp) :
    Yields mode (8205 + if stack then 4 else 0) (Chip.visit stack smp) fun later =>
      later.Bounded ∧ (mode ≠ .load → later.workload = smp.workload) := by
  refine smp.registers_yield.bind ?_
  rintro later ⟨bounded, continuation⟩
  cases stack with
  | false => exact .pure ⟨bounded, fun _ => congrArg Continuation.workload continuation⟩
  | true =>
    refine (Continuation.yields _).bind fun moved same => .pure ⟨⟨bounded.elapsed, bounded.samples⟩, fun writing => ?_⟩
    exact congrArg Continuation.workload ((same writing).trans continuation)

theorem transfers {stack : Bool} {smp base : Smp} (bounded : smp.Bounded)
    (work : stack = true ∨ base.continuation = smp.continuation) :
    Transfers (Chip.visit stack smp) (Chip.visit stack base) smp smp := by
  have registers : Transfers (Chip.serialize smp) (Chip.serialize base) smp { smp with continuation := base.continuation } := by
    have few : decide (smp.sampleCount.toNat ≤ sampleCapacity) = true := decide_eq_true bounded.samples
    have early : decide (smp.elapsed < sampleUnits) = true := decide_eq_true bounded.elapsed
    have position : address (UInt16.ofNat smp.pc).toNat = smp.pc := by
      have inside := smp.pc.isLt
      refine Fin.ext ?_
      simp only [address, UInt16.toNat_ofNat']
      omega
    obtain ⟨ram, a, pc, mix, elapsed, buffer, sampleCount, continuation⟩ := smp
    simp only [Chip.serialize, serialize]
    refine .bind (.bytes _ _) (.bind (.word _ _) (.bind (.word _ _) (.bind (.word _ _) (.bind (.word _ _)
      (.bind (.vector .word _ _) (.bind (.word _ _) (.bind (.require few _ _) (.bind (.require early _ _) ?_))))))))
    rw [position]
    exact .pure _ _
  exact Chip.visit_transfers registers ((Continuation.transfers _ _).bind (.pure _ _)) (work.imp_right fun same => by rw [same])

end Smp

namespace Ppu

theorem Continuation.decode?_encode (continuation : Continuation) :
    decode? continuation.encode.1 continuation.encode.2 = some continuation := by
  cases continuation with
  | idle | frame | endOfLine => rfl
  | line dot =>
    have inside := dot.isLt
    have small : (UInt16.ofNat dot.val).toNat = dot.val := by
      rw [UInt16.toNat_ofNat']
      omega
    simp [encode, decode?, small]

theorem Continuation.yields (continuation : Continuation) :
    Yields mode 3 continuation.serialize fun later => mode ≠ .load → later = continuation := by
  simp only [serialize]
  refine .of_size (.bind (.word _) fun tag same => .bind (.word _) fun dot matched => (?_ : Yields mode 0 _ _)) rfl
  have known : mode ≠ .load → decode? tag dot = some continuation := fun writing => by
    rw [same writing, matched writing, continuation.decode?_encode]
  exact .decoded known "ppu continuation" idle (by cases decode? tag dot <;> rfl)

theorem Continuation.transfers (continuation base : Continuation) :
    Transfers continuation.serialize base.serialize continuation continuation := by
  simp only [serialize]
  refine .bind (.word _ _) (.bind (.word _ _) ?_)
  rw [continuation.decode?_encode]
  exact .pure _ _

theorem picture_yields (picture : Framebuffer) : Yields mode 114688 (Serializable.serialize picture) fun _ => True := by
  have pixel : ∀ color : Rgb15, Yields mode 2 (Serializable.serialize color) fun later => mode ≠ .load → later = color :=
    fun color => .of_size (.bind (.word _) fun bits same => .pure fun writing => congrArg Rgb15.mk (same writing)) rfl
  exact .of_size (.bind (.vector pixel _) fun _ _ => .pure trivial) rfl

theorem picture_transfers (picture base : Framebuffer) :
    Transfers (Serializable.serialize picture) (Serializable.serialize base) picture picture := by
  have pixel : ∀ color base : Rgb15, Transfers (Serializable.serialize color) (Serializable.serialize base) color color :=
    fun color base => .bind (.word color.bits base.bits) (.pure color color)
  exact .bind (.vector pixel _ _) (.pure picture picture)

theorem registers_yield (ppu : Ppu) : Yields mode 114698 (Chip.serialize ppu) fun later =>
    later.continuation = ppu.continuation ∧ later.line.toNat ≤ lastLine .any ∧
      (mode ≠ .load → later.line.toNat ≤ ppu.line.toNat) := by
  simp only [Chip.serialize, serialize]
  refine .of_size (.bind (.word _) fun line same => .bind (.word _) fun _ _ => .bind (picture_yields _) fun _ _ =>
    .bind (.require _ _ _ _) fun later checked => .pure ⟨rfl, ?_⟩) rfl
  rcases checked with ⟨small, rfl⟩ | ⟨_, rfl⟩
  · exact ⟨UInt16.le_iff_toNat_le.mp (of_decide_eq_true small), fun writing =>
      Nat.le_of_eq (congrArg UInt16.toNat (same writing))⟩
  · exact ⟨Nat.zero_le _, fun _ => Nat.zero_le _⟩

/-- A line that is not later with the same work is within its bounds, and after a load any work is. -/
theorem Bounded.renewed {ppu later : Ppu} (permitted : Permitted loads mode) (bounded : ppu.Bounded loads)
    (bound : later.line.toNat ≤ lastLine .any) (less : mode ≠ .load → later.line.toNat ≤ ppu.line.toNat)
    (kept : mode ≠ .load → later.continuation = ppu.continuation) : later.Bounded loads := by
  cases loads with
  | own =>
    have less := less (permitted rfl)
    simp only [Bounded, kept (permitted rfl)] at bounded ⊢
    cases at_work : ppu.continuation <;> simp only [at_work] at bounded ⊢ <;> omega
  | any =>
    simp only [Bounded]
    cases later.continuation <;> simp only <;> omega

/-- Lines of a machine that loads only its own snapshots may be in any snapshot. -/
theorem Bounded.bound {ppu : Ppu} (bounded : ppu.Bounded .own) : ppu.line.toNat ≤ lastLine .any := by
  have own : lastLine .own = 261 := rfl
  have any : lastLine .any = 262 := rfl
  simp only [Bounded] at bounded
  cases at_work : ppu.continuation <;> simp only [at_work] at bounded <;> omega

theorem visit_yields (stack : Bool) (ppu : Ppu) (permitted : Permitted loads mode) :
    Yields mode (114698 + if stack then 3 else 0) (Chip.visit stack ppu) fun later =>
      (ppu.Bounded loads → later.Bounded loads) ∧ later.line.toNat ≤ lastLine .any ∧
        (mode ≠ .load → later.workload = ppu.workload) := by
  refine ppu.registers_yield.bind ?_
  rintro later ⟨continuation, bound, less⟩
  cases stack with
  | false =>
    exact .pure ⟨fun bounded => bounded.renewed permitted bound less fun _ => continuation, bound,
      fun _ => congrArg Continuation.workload continuation⟩
  | true =>
    refine (Continuation.yields _).bind fun moved same => .pure ?_
    have kept : mode ≠ .load → moved = ppu.continuation := fun writing => (same writing).trans continuation
    exact ⟨fun bounded => bounded.renewed permitted bound less kept, bound,
      fun writing => congrArg Continuation.workload (kept writing)⟩

theorem transfers {stack : Bool} {ppu base : Ppu} (bound : ppu.line.toNat ≤ lastLine .any)
    (work : stack = true ∨ base.continuation = ppu.continuation) :
    Transfers (Chip.visit stack ppu) (Chip.visit stack base) ppu ppu := by
  have registers : Transfers (Chip.serialize ppu) (Chip.serialize base) ppu { ppu with continuation := base.continuation } := by
    have accepted : decide (ppu.line ≤ linesPerFrame) = true := decide_eq_true (UInt16.le_iff_toNat_le.mpr bound)
    simp only [Chip.serialize, serialize]
    exact .bind (.word _ _) (.bind (.word _ _) (.bind (picture_transfers _ _) (.bind (.require accepted _ _) (.pure _ _))))
  exact Chip.visit_transfers registers ((Continuation.transfers _ _).bind (.pure _ _)) (work.imp_right fun same => by rw [same])

end Ppu

namespace Multiplier

theorem Continuation.decode?_encode (continuation : Continuation) :
    decode? continuation.encode.1 continuation.encode.2 = some continuation := by
  cases continuation <;> rfl

theorem Continuation.yields (continuation : Continuation) :
    Yields mode 2 continuation.serialize fun later => mode ≠ .load → later = continuation := by
  simp only [serialize]
  refine .of_size (.bind (.word _) fun tag same => .bind (.word _) fun left matched => (?_ : Yields mode 0 _ _)) rfl
  have known : mode ≠ .load → decode? tag left = some continuation := fun writing => by
    rw [same writing, matched writing, continuation.decode?_encode]
  exact .decoded known "multiplier continuation" idle (by cases decode? tag left <;> rfl)

theorem Continuation.transfers (continuation base : Continuation) :
    Transfers continuation.serialize base.serialize continuation continuation := by
  simp only [serialize]
  refine .bind (.word _ _) (.bind (.word _ _) ?_)
  rw [continuation.decode?_encode]
  exact .pure _ _

theorem visit_yields (stack : Bool) (unit : Multiplier) :
    Yields mode (8 + if stack then 2 else 0) (Chip.visit stack unit) fun later =>
      later.index = unit.index ∧ (mode ≠ .load → later.workload = unit.workload) := by
  have registers : Yields mode 8 (Chip.serialize unit) fun later =>
      later.index = unit.index ∧ later.continuation = unit.continuation := by
    simp only [Chip.serialize, serialize]
    exact .of_size (.bind (.bytes _) fun _ _ => .bind (.word _) fun _ _ => .pure ⟨rfl, rfl⟩) rfl
  refine registers.bind ?_
  rintro later ⟨index, continuation⟩
  cases stack with
  | false => exact .pure ⟨index, fun _ => congrArg Continuation.workload continuation⟩
  | true =>
    refine (Continuation.yields _).bind fun moved same => .pure ⟨index, fun writing => ?_⟩
    exact congrArg Continuation.workload ((same writing).trans continuation)

theorem transfers {stack : Bool} {unit base : Multiplier} (index : base.index = unit.index)
    (work : stack = true ∨ base.continuation = unit.continuation) :
    Transfers (Chip.visit stack unit) (Chip.visit stack base) unit unit := by
  have registers : Transfers (Chip.serialize unit) (Chip.serialize base) unit
      { unit with continuation := base.continuation } := by
    rw [show ({ unit with continuation := base.continuation } : Multiplier) =
      { base with operands := unit.operands, operations := unit.operations } by rw [index]]
    simp only [Chip.serialize, serialize]
    exact .bind (.bytes _ _) (.bind (.word _ _) (.pure _ _))
  exact Chip.visit_transfers registers ((Continuation.transfers _ _).bind (.pure _ _)) (work.imp_right fun same => by rw [same])

end Multiplier

namespace Rtc

theorem visit_yields (stack : Bool) (clock : Rtc) :
    Yields mode (6 + if stack then 1 else 0) (Chip.visit stack clock) fun later =>
      later.Fits clock.index ∧ (mode ≠ .load → later.workload = clock.workload) := by
  have registers : Yields mode 6 (Chip.serialize clock) fun later =>
      later.Fits clock.index ∧ later.ticked = clock.ticked := by
    simp only [Chip.serialize, serialize]
    refine .of_size (.bind (.word _) fun _ _ => .bind (.word _) fun _ _ => .bind (.require _ _ _ _) fun ticks checked =>
      .pure ⟨⟨rfl, ?_⟩, rfl⟩) rfl
    rcases checked with ⟨early, rfl⟩ | ⟨_, rfl⟩
    · exact of_decide_eq_true early
    · exact (by decide : (0 : UInt16).toUInt32 < frequency)
  refine registers.bind ?_
  rintro later ⟨fits, ticked⟩
  cases stack with
  | false => exact .pure ⟨fits, fun _ => by rw [workload, workload, ticked]⟩
  | true =>
    refine .of_size (.bind (.boolean _) fun moved same => .pure ⟨⟨fits.index, fits.ticks⟩, fun writing => ?_⟩) rfl
    simp only [workload, (same writing).trans ticked]

theorem transfers {stack : Bool} {clock base : Rtc} (fits : clock.Fits base.index)
    (work : stack = true ∨ base.ticked = clock.ticked) :
    Transfers (Chip.visit stack clock) (Chip.visit stack base) clock clock := by
  have registers : Transfers (Chip.serialize clock) (Chip.serialize base) clock { clock with ticked := base.ticked } := by
    have early : decide (clock.ticks.toUInt32 < frequency) = true := decide_eq_true fits.ticks
    rw [show ({ clock with ticked := base.ticked } : Rtc) =
      { base with ticks := clock.ticks, seconds := clock.seconds } by rw [fits.index]]
    simp only [Chip.serialize, serialize]
    exact .bind (.word _ _) (.bind (.word _ _) (.bind (.require early _ _) (.pure _ _)))
  exact Chip.visit_transfers registers (.bind (.boolean _ _) (.pure _ _)) (work.imp_right fun same => by rw [same])

end Rtc

namespace Coprocessor

/-- Bytes of a coprocessor, with or without its continuation. -/
def visitSize (stack : Bool) : CoprocessorKind → Nat
  | .multiplier => 8 + if stack then 2 else 0
  | .rtc => 6 + if stack then 1 else 0

theorem visit_multiplier (stack : Bool) (unit : Multiplier) :
    Chip.visit stack (multiplier unit) = multiplier <$> Chip.visit stack unit := by
  cases stack <;> rfl

theorem visit_rtc (stack : Bool) (clock : Rtc) : Chip.visit stack (rtc clock) = rtc <$> Chip.visit stack clock := by
  cases stack <;> rfl

theorem visit_yields (stack : Bool) {chip : Coprocessor} {kind : CoprocessorKind} {index : UInt8} (fits : chip.Fits kind index) :
    Yields mode (visitSize stack kind) (Chip.visit stack chip) fun later =>
      later.Fits kind index ∧ (mode ≠ .load → later.workload = chip.workload) := by
  cases chip with
  | multiplier unit =>
    obtain ⟨rfl, rfl⟩ := fits
    rw [visit_multiplier]
    exact .map _ ((unit.visit_yields stack).mono fun later visited => ⟨⟨rfl, visited.1⟩, visited.2⟩)
  | rtc clock =>
    obtain ⟨rfl, rfl, ticks⟩ := fits
    rw [visit_rtc]
    exact .map _ ((clock.visit_yields stack).mono fun later visited => ⟨⟨rfl, visited.1⟩, visited.2⟩)

/-- Two coprocessors of one kind that have the same in flight. -/
def SameWork : Coprocessor → Coprocessor → Prop
  | multiplier first, multiplier second => first.continuation = second.continuation
  | rtc first, rtc second => first.ticked = second.ticked
  | _, _ => True

theorem SameWork.refl (chip : Coprocessor) : chip.SameWork chip := by
  cases chip <;> rfl

theorem SameWork.of_boundary {first second : Coprocessor} (idle : Chip.atBoundary first = true)
    (rests : Chip.atBoundary second = true) : first.SameWork second := by
  cases first with
  | multiplier =>
    cases second with
    | multiplier => exact (eq_of_beq idle).trans (eq_of_beq rests).symm
    | rtc => trivial
  | rtc =>
    cases second with
    | multiplier => trivial
    | rtc => exact ((Bool.not_eq_true' _).mp idle).trans ((Bool.not_eq_true' _).mp rests).symm

theorem transfers {stack : Bool} {chip base : Coprocessor} {kind : CoprocessorKind} {index : UInt8}
    (fits : chip.Fits kind index) (alike : base.Fits kind index) (work : stack = true ∨ base.SameWork chip) :
    Transfers (Chip.visit stack chip) (Chip.visit stack base) chip chip := by
  cases chip with
  | multiplier unit =>
    obtain ⟨rfl, rfl⟩ := fits
    cases base with
    | rtc => cases alike.1
    | multiplier base =>
      rw [visit_multiplier, visit_multiplier]
      exact .map _ (Multiplier.transfers alike.2 work)
  | rtc clock =>
    obtain ⟨rfl, fits⟩ := fits
    cases base with
    | multiplier => cases alike.1
    | rtc base =>
      rw [visit_rtc, visit_rtc]
      exact .map _ (Rtc.transfers (alike.2.index.symm ▸ fits) work)

end Coprocessor
end MultiClock
