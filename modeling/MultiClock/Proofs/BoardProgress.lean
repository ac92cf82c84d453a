import MultiClock.Proofs.BoardVisits
import MultiClock.Proofs.UnitsOfWork

/-! The work of the dependents on a board, one unit after another. Only the display processor raises frames, and whoever handles a
frame finds it at the end of the last visible line. -/

namespace MultiClock

open Relation

theorem Array.setIfInBounds_same {items : Array α} {index : Nat} {item : α} (found : items[index]? = some item) :
    items.setIfInBounds index item = items := by
  obtain ⟨inside, rfl⟩ := Array.getElem?_eq_some_iff.mp found
  rw [Array.setIfInBounds, dif_pos inside, Array.set_getElem_self]

namespace Board

/-- Where units of work lead to, the clock units that they take, and the frames that they raise. -/
structure Progress where
  board : Board
  units : Nat
  frames : Nat

/-- The dependent is at its boundary, with room to count what its next unit of work counts. The reference is no dependent. -/
def Poised (board : Board) : ThreadId → Prop
  | .cpu => False
  | .smp => board.smp.Poised
  | .ppu => board.ppu.Poised
  | .coprocessor index => ∃ chip, board.coprocessors[index.toNat]? = some chip ∧ chip.Poised

section

variable (handle : Board → Board)

/-- A whole line, with the frame that it may raise. -/
def drawLine (board : Board) : Progress :=
  let drawn := board.ppu.drawn board.bus
  if drawn.continuation = .frame then
    let handled := handle { board with ppu := drawn.handed }
    ⟨{ handled with ppu := handled.ppu.wrapped }, Workload.frameUnits, 1⟩
  else ⟨{ board with ppu := drawn.wrapped }, Workload.frameUnits, 0⟩

/-- The next unit of work of a dependent. -/
def work (id : ThreadId) (board : Board) : Progress :=
  match id with
  | .cpu => ⟨board, 0, 0⟩
  | .smp =>
    let (smp, bus) := board.smp.instruction board.bus
    ⟨{ board with smp, bus }, board.smp.duration, 0⟩
  | .ppu => board.drawLine handle
  | .coprocessor index =>
    match board.coprocessors[index.toNat]? with
    | none => ⟨board, 0, 0⟩
    | some chip =>
      let (later, bus) := chip.work board.bus
      ⟨{ board with bus, coprocessors := board.coprocessors.setIfInBounds index.toNat later }, chip.duration, 0⟩

def works (id : ThreadId) : Nat → Board → Progress
  | 0, board => ⟨board, 0, 0⟩
  | count + 1, board =>
    let first := board.work handle id
    let rest := works id count first.board
    ⟨rest.board, first.units + rest.units, first.frames + rest.frames⟩

end

/-- A slice of the active chip that asks for no transfer of control. -/
def Goes (before after : Board × Scheduler) : Prop :=
  ∃ notices, before.1.slice before.2.active before.2 = .ok (after.1, after.2, notices) ∧ after.2.transfer = none

abbrev GoesOn : Board × Scheduler → Board × Scheduler → Prop := ReflTransGen Goes

variable {handle : Board → Board} {id : ThreadId} {board : Board} {scheduler later : Scheduler}

theorem Poised.dependent (poised : board.Poised id) : id ≠ .cpu := by
  rintro rfl
  exact poised

/-- Whatever a machine is made of or loaded with, a dependent at its boundary has room to count. -/
theorem Fits.poised {loads : Loads} {kinds : List CoprocessorKind} (fits : board.Fits loads kinds) (dependent : id ≠ .cpu)
    (present : id.index < 3 + kinds.length) (rested : board.Rested id) : board.Poised id := by
  cases id with
  | cpu => exact absurd rfl dependent
  | smp =>
    refine ⟨smp_rested rested, ?_⟩
    have within := UInt32.lt_iff_toNat_lt.mp fits.smp.elapsed
    simp only [Smp.sampleUnits, Smp.cycleUnits, UInt32.reduceToNat] at within ⊢
    omega
  | ppu =>
    have idle := ppu_rested rested
    refine ⟨idle, ?_⟩
    have within := fits.ppu
    simp only [Ppu.Bounded, idle] at within
    have bound : Ppu.lastLine loads ≤ 262 := by cases loads <;> decide
    omega
  | coprocessor index =>
    have inside : index.toNat < board.coprocessors.size := by
      rw [fits.chips]
      simp only [ThreadId.index] at present
      omega
    have found := Array.getElem?_eq_getElem inside
    have boundary := coprocessor_rested found rested
    obtain ⟨kind, _, fit⟩ := fits.coprocessors _ _ found
    refine ⟨_, found, ?_⟩
    cases chip : board.coprocessors[index.toNat] with
    | multiplier unit =>
      rw [chip] at boundary
      exact eq_of_beq boundary
    | rtc clock =>
      rw [chip] at boundary fit
      have within := UInt32.lt_iff_toNat_lt.mp fit.2.ticks
      simp only [Rtc.frequency, UInt16.toNat_toUInt32, UInt32.reduceToNat] at within
      have idle : (!clock.ticked) = true := boundary
      exact ⟨by simpa using idle, by omega⟩

/-- A unit of work takes its time, and no more than a line. -/
theorem work_units (handle : Board → Board) (poised : board.Poised id) :
    0 < (board.work handle id).units ∧ (board.work handle id).units ≤ Workload.frameUnits := by
  cases id with
  | cpu => exact poised.elim
  | smp =>
    simp only [work, Smp.duration]
    cases board.smp.opcode <;> decide
  | ppu =>
    simp only [work, drawLine]
    split <;> exact ⟨(by decide : 0 < Workload.frameUnits), Nat.le_refl _⟩
  | coprocessor index =>
    obtain ⟨chip, found, _⟩ := poised
    simp only [work, found]
    cases chip with
    | multiplier => exact (by decide : 0 < Multiplier.idleCycles.toNat ∧ Multiplier.idleCycles.toNat ≤ Workload.frameUnits)
    | rtc => exact (by decide : 0 < 1 ∧ 1 ≤ Workload.frameUnits)

theorem Poised.work (handle : Board → Board) (poised : board.Poised id) : (board.work handle id).board.Poised id := by
  cases id with
  | cpu => exact poised.elim
  | smp => exact Smp.Poised.instruction poised board.bus
  | ppu =>
    simp only [Board.work, drawLine]
    split <;> exact Ppu.Poised.wrapped
  | coprocessor index =>
    obtain ⟨chip, found, poised⟩ := poised
    have inside := (Array.getElem?_eq_some_iff.mp found).1
    simp only [Board.work, found]
    exact ⟨_, Array.getElem?_setIfInBounds_self_of_lt inside, poised.work board.bus⟩

theorem Poised.works (handle : Board → Board) (poised : board.Poised id) (count : Nat) : (board.works handle id count).board.Poised id := by
  induction count generalizing board with
  | zero => exact poised
  | succ count ih => exact ih (poised.work handle)

/-- The units of the last unit of work are those of any. -/
theorem units_succ_le (handle : Board → Board) (poised : board.Poised id) (count : Nat) :
    (board.works handle id (count + 1)).units ≤ (board.works handle id count).units + Workload.frameUnits := by
  induction count generalizing board with
  | zero =>
    have first := (board.work_units handle poised).2
    simp only [works]
    omega
  | succ count ih =>
    have rest := ih (poised.work handle)
    simp only [works] at rest ⊢
    omega

theorem le_units (handle : Board → Board) (poised : board.Poised id) (count : Nat) : count ≤ (board.works handle id count).units := by
  induction count generalizing board with
  | zero => exact Nat.le_refl 0
  | succ count ih =>
    have first := (board.work_units handle poised).1
    have rest := ih (poised.work handle)
    simp only [works]
    omega

/-- Only a line raises a frame, and no other work. -/
theorem raised_of_frames (raises : (board.work handle id).frames ≠ 0) : id = .ppu ∧ (board.ppu.drawn board.bus).continuation = .frame := by
  cases id with
  | cpu | smp => exact absurd rfl raises
  | ppu =>
    simp only [work, drawLine] at raises
    split at raises
    next raised => exact ⟨rfl, raised⟩
    next => exact absurd rfl raises
  | coprocessor index =>
    simp only [work] at raises
    split at raises <;> exact absurd rfl raises

/-- A frame takes a line at least. -/
theorem frames_le_units (handle : Board → Board) (id : ThreadId) (board : Board) (count : Nat) :
    (board.works handle id count).frames * Workload.frameUnits ≤ (board.works handle id count).units := by
  induction count generalizing board with
  | zero => exact Nat.le_of_eq (Nat.zero_mul _)
  | succ count ih =>
    have first : (board.work handle id).frames * Workload.frameUnits ≤ (board.work handle id).units := by
      by_cases silent : (board.work handle id).frames = 0
      · rw [silent, Nat.zero_mul]
        exact Nat.zero_le _
      · obtain ⟨rfl, raised⟩ := raised_of_frames silent
        simp only [work, drawLine, if_pos raised, Nat.one_mul, Nat.le_refl]
    simp only [works, Nat.add_mul]
    exact Nat.add_le_add first (ih _)

theorem smp_goes (board : Board) {before after : Smp × Bus × Scheduler} (goes : Chip.GoesOn .smp before after) :
    GoesOn ({ board with smp := before.1, bus := before.2.1 }, before.2.2) ({ board with smp := after.1, bus := after.2.1 }, after.2.2) := by
  refine goes.lift (fun state => ({ board with smp := state.1, bus := state.2.1 }, state.2.2)) ?_
  rintro before after ⟨notices, sliced, active, free⟩
  refine ⟨notices, ?_, free⟩
  simp only [active, slice, sliced, bind, Except.bind]
  rfl

theorem ppu_goes (board : Board) {before after : Ppu × Bus × Scheduler} (goes : Chip.GoesOn .ppu before after) :
    GoesOn ({ board with ppu := before.1, bus := before.2.1 }, before.2.2) ({ board with ppu := after.1, bus := after.2.1 }, after.2.2) := by
  refine goes.lift (fun state => ({ board with ppu := state.1, bus := state.2.1 }, state.2.2)) ?_
  rintro before after ⟨notices, sliced, active, free⟩
  refine ⟨notices, ?_, free⟩
  simp only [active, slice, sliced, bind, Except.bind]
  rfl

theorem coprocessor_goes (board : Board) {index : UInt8} (inside : index.toNat < board.coprocessors.size)
    {before after : Coprocessor × Bus × Scheduler} (goes : Chip.GoesOn (.coprocessor index) before after) :
    GoesOn ({ board with coprocessors := board.coprocessors.setIfInBounds index.toNat before.1, bus := before.2.1 }, before.2.2)
      ({ board with coprocessors := board.coprocessors.setIfInBounds index.toNat after.1, bus := after.2.1 }, after.2.2) := by
  refine goes.lift
    (fun state => ({ board with coprocessors := board.coprocessors.setIfInBounds index.toNat state.1, bus := state.2.1 }, state.2.2)) ?_
  rintro before after ⟨notices, sliced, active, free⟩
  have placed : (board.coprocessors.setIfInBounds index.toNat before.1)[index.toNat]? = some before.1 :=
    Array.getElem?_setIfInBounds_self_of_lt inside
  refine ⟨notices, ?_, free⟩
  simp only [active, slice, Array.modifyM_apply placed, sliced, bind, Except.bind, Array.setIfInBounds_setIfInBounds]
  rfl

theorem drawn_goes (poised : board.Poised .ppu) (steering : scheduler.Steering .ppu Workload.frameUnits) (passes : scheduler.Passes .ppu) :
    GoesOn (board, scheduler) ({ board with ppu := board.ppu.drawn board.bus }, scheduler.worked .ppu Workload.frameUnits) :=
  ppu_goes board (Ppu.drawn_goes board.bus poised steering passes)

theorem endOfLine_goes (board : Board) (ended : board.ppu.continuation = .endOfLine) {room : Nat} (steering : scheduler.Steering .ppu room) :
    GoesOn (board, scheduler) ({ board with ppu := board.ppu.wrapped }, scheduler) := by
  have goes := ppu_goes board (.single (Ppu.wraps board.bus board.ppu steering))
  simp only [← ended] at goes
  exact goes

/-- The slices of a unit of work that raises no frame. -/
theorem work_goes (handle : Board → Board) (poised : board.Poised id) (steering : scheduler.Steering id (board.work handle id).units)
    (passes : scheduler.Passes id) (silent : (board.work handle id).frames = 0) :
    GoesOn (board, scheduler) ((board.work handle id).board, scheduler.worked id (board.work handle id).units) := by
  cases id with
  | cpu => exact poised.elim
  | smp => exact smp_goes board (Smp.instruction_goes board.bus poised steering passes)
  | ppu =>
    simp only [work, drawLine] at steering silent ⊢
    split at silent
    next => exact absurd silent Nat.one_ne_zero
    next visible =>
      rw [if_neg visible] at steering ⊢
      have ended : (board.ppu.drawn board.bus).continuation = .endOfLine := (Ppu.ended_continuation _).resolve_left visible
      have wraps := endOfLine_goes { board with ppu := board.ppu.drawn board.bus } ended steering.worked
      exact (drawn_goes poised steering passes).trans wraps
  | coprocessor index =>
    obtain ⟨chip, found, poised⟩ := poised
    have inside := (Array.getElem?_eq_some_iff.mp found).1
    simp only [work, found] at steering ⊢
    have goes := coprocessor_goes board inside (Coprocessor.work_goes board.bus poised steering passes)
    simp only [Array.setIfInBounds_same found] at goes
    exact goes

theorem stop_slice (poised : board.Poised id) {room : Nat} (steering : scheduler.Steering id room) (stays : ¬ scheduler.Passes id) :
    board.slice id scheduler = .ok (board, scheduler.stopped id, []) := by
  cases id with
  | cpu => exact poised.elim
  | smp =>
    simp only [slice, Smp.Poised.stops _ poised steering stays, bind, Except.bind]
    rfl
  | ppu =>
    simp only [slice, Ppu.Poised.stops _ poised steering stays, bind, Except.bind]
    rfl
  | coprocessor index =>
    obtain ⟨chip, found, poised⟩ := poised
    simp only [slice, Array.modifyM_apply found, poised.stops _ steering stays, bind, Except.bind, pure, Except.pure,
      Array.setIfInBounds_same found]

theorem frame_slice (board : Board) (raised : board.ppu.continuation = .frame) {room : Nat} (steering : scheduler.Steering .ppu room) :
    board.slice .ppu scheduler =
      .ok ({ board with ppu := board.ppu.handed }, { scheduler with transfer := some (.leave .frame) }, []) := by
  have leaves : (Context.mk board.bus scheduler .ppu []).leave .frame =
      .ok ⟨board.bus, { scheduler with transfer := some (.leave .frame) }, .ppu, []⟩ := by
    simp only [Context.leave, Scheduler.leave_eq_ok.mpr ⟨steering.entered, steering.free, rfl⟩, bind, Except.bind]
    rfl
  simp only [slice, Chip.slice, Ppu.slice, raised, leaves, bind, Except.bind]
  rfl

/-- How a board changes while one dependent works: its own chip and the bus change, and so many frames are handled in between. -/
inductive Driven (handle : Board → Board) (id : ThreadId) : Nat → Board → Board → Prop
  | rest (board : Board) : Driven handle id 0 board board
  | own {frames : Nat} {before middle after : Board} (others : ∀ other, other ≠ id → before.SameChip middle other)
      (count : middle.frame = before.frame) (more : Driven handle id frames middle after) : Driven handle id frames before after
  | handled {frames : Nat} {before after : Board} (more : Driven handle id frames (handle before) after) :
      Driven handle id (frames + 1) before after

theorem Driven.append {first second : Nat} {before middle after : Board} (begins : Driven handle id first before middle)
    (ends : Driven handle id second middle after) : Driven handle id (first + second) before after := by
  induction begins with
  | rest => exact (Nat.zero_add second).symm ▸ ends
  | own others count _ ih => exact .own others count (ih ends)
  | @handled frames _ _ _ ih =>
    rw [Nat.add_right_comm]
    exact .handled (ih ends)

theorem Driven.single {before after : Board} (others : ∀ other, other ≠ id → before.SameChip after other)
    (count : after.frame = before.frame) : Driven handle id 0 before after :=
  .own others count (.rest after)

theorem driven_line (handle : Board → Board) (board : Board) :
    Driven handle .ppu (board.drawLine handle).frames board (board.drawLine handle).board := by
  have own : ∀ (board : Board) (ppu : Ppu), Driven handle .ppu 0 board { board with ppu } := by
    intro board ppu
    refine .single ?_ rfl
    rintro (_ | _ | _ | index) different
    · rfl
    · rfl
    · exact absurd rfl different
    · rfl
  simp only [drawLine]
  split
  next => exact (own board _).append (.handled (own _ _))
  next => exact own board _

theorem driven_work (handle : Board → Board) (id : ThreadId) (board : Board) :
    Driven handle id (board.work handle id).frames board (board.work handle id).board := by
  cases id with
  | cpu => exact .rest board
  | smp =>
    refine .single ?_ rfl
    rintro (_ | _ | _ | index) different
    · rfl
    · exact absurd rfl different
    · rfl
    · rfl
  | ppu => exact driven_line handle board
  | coprocessor index =>
    simp only [work]
    split
    next => exact .rest board
    next chip found =>
      refine .single ?_ rfl
      rintro (_ | _ | _ | other) different
      · rfl
      · rfl
      · rfl
      · have apart : index.toNat ≠ other.toNat := fun same => different (by rw [UInt8.toNat_inj.mp same])
        simp [SameChip, apart]

/-- Units of work of one dependent leave everything else as it was, apart from the frames that are handled on the way. -/
theorem driven_works (handle : Board → Board) (id : ThreadId) (count : Nat) (board : Board) :
    Driven handle id (board.works handle id count).frames board (board.works handle id count).board := by
  induction count generalizing board with
  | zero => exact .rest board
  | succ count ih => exact (driven_work handle id board).append (ih _)

end Board
end MultiClock
