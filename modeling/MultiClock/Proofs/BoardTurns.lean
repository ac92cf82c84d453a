import MultiClock.Proofs.CpuTurns
import MultiClock.Proofs.DependentTurns
import MultiClock.Proofs.Wiring

/-! The slices of a board. A slice is one chip's; all other chips keep their registers and their work,
so the board follows from the chips. -/

namespace MultiClock

theorem Array.modifyM_some [Monad m] {items : Array α} {index : Nat} {item : α} (found : items[index]? = some item)
    (visit : α → m α) :
    items.modifyM index visit = (do
      let item ← visit item
      pure (items.setIfInBounds index item)) := by
  obtain ⟨inside, rfl⟩ := Array.getElem?_eq_some_iff.mp found
  rw [Array.modifyM, dif_pos inside]
  simp only [Array.setIfInBounds, dif_pos inside]

theorem Array.modifyM_apply {items : Array α} {index : Nat} {item : α} (found : items[index]? = some item)
    (visit : α → StateT σ (Except ε) α) (state : σ) :
    items.modifyM index visit state = (do
      let (item, state) ← visit item state
      pure (items.setIfInBounds index item, state)) := by
  rw [Array.modifyM_some found]
  rfl

theorem Array.modifyM_none [Monad m] {items : Array α} {index : Nat} (missing : items[index]? = none) (visit : α → m α) :
    items.modifyM index visit = pure items := by
  rw [Array.modifyM, dif_neg (by simpa using missing)]

namespace Board

/-- The chips are those of a list of coprocessors, and all registers are within their bounds. -/
structure Fits (loads : Loads) (kinds : List CoprocessorKind) (board : Board) : Prop where
  cpu : board.cpu.Fits loads (UInt8.ofNat kinds.length)
  smp : board.smp.Bounded
  ppu : board.ppu.Bounded loads
  latches : board.bus.coprocessors.size = kinds.length
  chips : board.coprocessors.size = kinds.length
  coprocessors : ∀ (position : Nat) (chip : Coprocessor), board.coprocessors[position]? = some chip →
    ∃ kind, kinds[position]? = some kind ∧ chip.Fits kind (UInt8.ofNat position)

/-- What a dependent has in flight. -/
def workload (board : Board) : ThreadId → Workload
  | .cpu => .idle
  | .smp => board.smp.workload
  | .ppu => board.ppu.workload
  | .coprocessor index => (board.coprocessors[index.toNat]?.map Coprocessor.workload).getD .idle

theorem workload_le (board : Board) (id : ThreadId) : (board.workload id).slices ≤ 300 ∧ (board.workload id).units ≤ 6120 := by
  cases id with
  | cpu => exact ⟨Nat.zero_le _, Nat.zero_le _⟩
  | smp => exact board.smp.workload_le
  | ppu =>
    obtain ⟨slices, units, _⟩ := board.ppu.workload_le
    exact ⟨slices, Nat.le_trans units (by decide)⟩
  | coprocessor index =>
    simp only [workload]
    cases board.coprocessors[index.toNat]? with
    | none => exact ⟨Nat.zero_le _, Nat.zero_le _⟩
    | some chip =>
      obtain ⟨slices, units⟩ := chip.workload_le
      exact ⟨Nat.le_trans slices (by decide), Nat.le_trans units (by decide)⟩

/-- How a dependent keeps pace with the reference of a rate. -/
def pace (board : Board) (reference : Nat) : ThreadId → Workload.Pace
  | .cpu => .prompt 0 0
  | .smp => Smp.pace reference
  | .ppu => Ppu.pace
  | .coprocessor index => (board.coprocessors[index.toNat]?.map Coprocessor.pace).getD (.prompt 0 0)

/-- A board before and after a slice of one of its chips. -/
inductive Turns (scheduler : Scheduler) (before after : Board) (action : Action) : ThreadId → Prop
  | reference (moves : before.cpu.Moves scheduler after.cpu action)
      (coprocessors : after.cpu.coprocessors = before.cpu.coprocessors)
      (others : ∀ id, after.workload id = before.workload id) : Turns scheduler before after action .cpu
  | dependent {id : ThreadId} (dependent : id ≠ .cpu)
      (advances : (before.workload id).Advances (before.pace (scheduler.rate .cpu) id) scheduler.mode (scheduler.time id)
        (after.workload id) action) (cpu : after.cpu = before.cpu)
      (others : ∀ other, other ≠ id → after.workload other = before.workload other) :
      Turns scheduler before after action id
  /-- A thread without a chip does nothing. -/
  | absent {index : UInt8} (missing : before.coprocessors[index.toNat]? = none) (rests : action = .rest)
      (same : after = before) : Turns scheduler before after action (.coprocessor index)

/-- What the scheduler has to grant for a slice to end in nothing but an overflow. -/
structure Prepared (loads : Loads) (kinds : List CoprocessorKind) (id : ThreadId) (scheduler : Scheduler) (board : Board) :
    Prop where
  ready : scheduler.Ready id
  wired : scheduler.shape = wiring kinds
  few : kinds.length ≤ Cartridge.maxCoprocessors
  fits : board.Fits loads kinds

def Comes (loads : Loads) (kinds : List CoprocessorKind) (id : ThreadId) (scheduler : Scheduler) (board : Board)
    (result : Board × Scheduler × List Notice) : Prop :=
  ∃ action, scheduler.Does id action result.2.1 ∧ Silent result.2.2 ∧
    (∀ other, unitsOf other result.2.2 = if other = id then action.units else 0) ∧ Turns scheduler board result.1 action id ∧
    (board.Fits loads kinds → result.1.Fits loads kinds)

theorem silent_nil : Silent [] := by simp [Silent]


section chips
variable (loads : Loads) (kinds : List CoprocessorKind) (board : Board) (scheduler : Scheduler)

theorem smp_comes : Meets (Excused (Prepared loads kinds .smp scheduler board) scheduler.Calm) (Comes loads kinds .smp scheduler board)
    (board.slice .smp scheduler) := by
  have turns := board.smp.slice_turns ⟨board.bus, scheduler, .smp, []⟩
  refine (turns.permit (Excused.of_ready fun set => ⟨set.ready, by simp, set.fits.smp⟩)).bind ?_
  rintro ⟨smp, after⟩ ⟨action, does, advances, bounded⟩
  refine .pure ⟨action, does.scheduler, does.silent silent_nil, does.units_nil, .dependent (by simp) advances rfl ?_, fun fits => ?_⟩
  · intro other different
    cases other with
    | smp => exact absurd rfl different
    | cpu | ppu | coprocessor => rfl
  · exact ⟨fits.cpu, bounded fits.smp, fits.ppu, does.latches.trans fits.latches, fits.chips, fits.coprocessors⟩

theorem ppu_comes : Meets (Excused (Prepared loads kinds .ppu scheduler board) scheduler.Calm) (Comes loads kinds .ppu scheduler board)
    (board.slice .ppu scheduler) := by
  have turns := board.ppu.slice_turns loads ⟨board.bus, scheduler, .ppu, []⟩
  refine (turns.permit (Excused.of_ready fun set => ⟨set.ready, by simp, set.fits.ppu⟩)).bind ?_
  rintro ⟨ppu, after⟩ ⟨action, does, advances, bounded⟩
  refine .pure ⟨action, does.scheduler, does.silent silent_nil, does.units_nil, .dependent (by simp) advances rfl ?_, fun fits => ?_⟩
  · intro other different
    cases other with
    | ppu => exact absurd rfl different
    | cpu | smp | coprocessor => rfl
  · exact ⟨fits.cpu, fits.smp, bounded fits.ppu, does.latches.trans fits.latches, fits.chips, fits.coprocessors⟩

theorem cpu_comes : Meets (Excused (Prepared loads kinds .cpu scheduler board) scheduler.Calm) (Comes loads kinds .cpu scheduler board)
    (board.slice .cpu scheduler) := by
  have turns := board.cpu.slice_turns loads (UInt8.ofNat kinds.length) ⟨board.bus, scheduler, .cpu, []⟩
  refine (turns.permit (Excused.of_ready fun set => ?_)).bind ?_
  · have few := set.few
    have count : (UInt8.ofNat kinds.length).toNat = kinds.length := by
      simp only [Cartridge.maxCoprocessors] at few
      simp only [UInt8.toNat_ofNat']
      omega
    refine ⟨set.ready, rfl, set.fits.cpu, by rw [count]; exact few, fun id member => ?_⟩
    have index := (Cpu.index_of_dependent member).2
    rw [set.fits.cpu.coprocessors, count] at index
    rw [Scheduler.size_of_wiring set.wired]
    exact index
  · rintro ⟨cpu, after⟩ ⟨action, does, moves, coprocessors, bounded⟩
    refine .pure ⟨action, does.scheduler, does.silent silent_nil, does.units_nil, .reference moves coprocessors ?_, fun fits => ?_⟩
    · intro other
      cases other <;> rfl
    · exact ⟨bounded fits.cpu, fits.smp, fits.ppu, does.latches.trans fits.latches, fits.chips, fits.coprocessors⟩

theorem coprocessor_comes (index : UInt8) :
    Meets (Excused (Prepared loads kinds (.coprocessor index) scheduler board) scheduler.Calm)
      (Comes loads kinds (.coprocessor index) scheduler board) (board.slice (.coprocessor index) scheduler) := by
  obtain ⟨bus, cpu, smp, ppu, coprocessors, frame⟩ := board
  simp only [slice]
  -- A board may lack the chip of a thread, whose slice then does nothing.
  cases found : coprocessors[index.toNat]? with
  | none =>
    rw [Array.modifyM_none found]
    exact .pure ⟨.rest, .rest, silent_nil, fun _ => (ite_self 0).symm, .absent found rfl rfl, id⟩
  | some chip =>
    rw [Array.modifyM_apply found]
    have turns := chip.slice_turns (kinds[index.toNat]?.getD .rtc) index ⟨bus, scheduler, .coprocessor index, []⟩
    rw [bind_assoc]
    refine (turns.permit (Excused.of_ready fun set => ⟨set.ready, by simp, ?_⟩)).bind ?_
    · obtain ⟨kind, placed, fits⟩ := set.fits.coprocessors index.toNat chip found
      simpa [placed] using fits
    · rintro ⟨later, after⟩ ⟨action, does, advances, bounded⟩
      have inside := (Array.getElem?_eq_some_iff.mp found).1
      refine .pure ⟨action, does.scheduler, does.silent silent_nil, does.units_nil, .dependent (by simp) ?_ rfl ?_, fun fits => ?_⟩
      · have worked : (coprocessors[index.toNat]?.map Coprocessor.workload).getD .idle = chip.workload := by
          rw [found]
          rfl
        simpa only [workload, worked, pace, found, Array.getElem?_setIfInBounds_self, if_pos inside, Option.map_some,
          Option.getD_some] using advances
      · intro other different
        cases other with
        | coprocessor other =>
          have apart : index.toNat ≠ other.toNat := fun same => different (by rw [UInt8.toNat_inj.mp same])
          simp [workload, apart]
        | _ => rfl
      · refine ⟨fits.cpu, fits.smp, fits.ppu, does.latches.trans fits.latches, by simpa using fits.chips, ?_⟩
        intro position moved placed
        rw [Array.getElem?_setIfInBounds] at placed
        split at placed
        next here =>
          obtain ⟨kind, listed, fit⟩ := fits.coprocessors index.toNat chip found
          cases placed
          subst here
          simp only [listed, Option.getD_some, UInt8.ofNat_toNat] at bounded fit
          exact ⟨kind, listed, by simpa using bounded fit⟩
        next => exact fits.coprocessors position moved placed

/-- One slice of a board, whichever chip executes. -/
theorem slice_comes (id : ThreadId) :
    Meets (Excused (Prepared loads kinds id scheduler board) scheduler.Calm) (Comes loads kinds id scheduler board)
      (ChipSet.slice id board scheduler) := by
  cases id with
  | cpu => exact cpu_comes loads kinds board scheduler
  | smp => exact smp_comes loads kinds board scheduler
  | ppu => exact ppu_comes loads kinds board scheduler
  | coprocessor index => exact coprocessor_comes loads kinds board scheduler index

end chips

/-- A slice of one chip leaves the registers of the others alone. -/
theorem slice_keeps (id : ThreadId) (board : Board) (scheduler : Scheduler) :
    Meets (fun _ => True) (fun result => (id ≠ .cpu → result.1.cpu = board.cpu) ∧ (id ≠ .smp → result.1.smp = board.smp) ∧
      (id ≠ .ppu → result.1.ppu = board.ppu) ∧ result.1.frame = board.frame) (board.slice id scheduler) := by
  obtain ⟨bus, cpu, smp, ppu, coprocessors, frame⟩ := board
  cases id <;> exact Meets.bind (.anything _) fun _ _ => .pure (by simp)

theorem disciplined : ChipSet.Disciplined Board := by
  intro id board scheduler
  have comes := slice_comes .any [] board scheduler id
  refine (comes.permit fun _ => And.left).mono ?_
  rintro result ⟨action, does, silent, _⟩
  exact ⟨does.calls, silent⟩

end Board
end MultiClock
