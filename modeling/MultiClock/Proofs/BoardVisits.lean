import MultiClock.Proofs.BoardTurns
import MultiClock.Proofs.ChipVisits
import MultiClock.Proofs.MachineInvariant

/-! The visitors of the chips on a board, one thread at a time. -/

namespace MultiClock.Board

open Visit

variable {mode : Serializer.Mode} {loads : Loads} {kinds : List CoprocessorKind} {stack : Bool} {board base : Board}

/-- Bytes of the chip of a thread, with or without its continuation. -/
def visitSize (kinds : List CoprocessorKind) (stack : Bool) : ThreadId → Nat
  | .cpu => 20 + if stack then 4 else 0
  | .smp => 8205 + if stack then 4 else 0
  | .ppu => 114698 + if stack then 3 else 0
  | .coprocessor index => (kinds[index.toNat]?.map (Coprocessor.visitSize stack)).getD 0

/-- What a visit of one chip keeps: all registers fit, and only a load changes what is in flight. -/
structure Renewed (mode : Serializer.Mode) (loads : Loads) (kinds : List CoprocessorKind) (before after : Board) : Prop where
  fits : after.Fits loads kinds
  rested : mode ≠ .load → ∀ id, before.Rested id → after.Rested id
  bus : after.bus = before.bus
  frame : after.frame = before.frame

/-- The registers of a chip that outgrow what a snapshot may hold are within it. Those of coprocessors always are. -/
def Ranged (board : Board) : ThreadId → Prop
  | .cpu => board.cpu.catchupUnits.toNat ≤ Cpu.restUnits .any
  | .ppu => board.ppu.line.toNat ≤ Ppu.lastLine .any
  | .smp | .coprocessor _ => True

theorem Fits.ranged (fits : board.Fits .own kinds) (id : ThreadId) : board.Ranged id := by
  cases id with
  | cpu => exact fits.cpu.bound
  | ppu => exact fits.ppu.bound
  | smp | coprocessor => trivial

def withCoprocessor (board : Board) (index : Nat) (chip : Coprocessor) : Board :=
  { board with coprocessors := board.coprocessors.setIfInBounds index chip }

theorem serializeChip_coprocessor {index : UInt8} {chip : Coprocessor} (found : board.coprocessors[index.toNat]? = some chip) :
    board.serializeChip (.coprocessor index) stack = (do
      let chip ← Chip.visit stack chip
      pure (board.withCoprocessor index.toNat chip)) := by
  obtain ⟨bus, cpu, smp, ppu, coprocessors, frame⟩ := board
  simp only [serializeChip]
  rw [Array.modifyM_some found]
  simp only [bind_assoc, pure_bind]
  rfl

theorem Fits.withCoprocessor {index : UInt8} {kind : CoprocessorKind} {chip : Coprocessor} (fits : board.Fits loads kinds)
    (listed : kinds[index.toNat]? = some kind) (fit : chip.Fits kind index) :
    (board.withCoprocessor index.toNat chip).Fits loads kinds := by
  refine ⟨fits.cpu, fits.smp, fits.ppu, fits.latches, by simpa [Board.withCoprocessor] using fits.chips, ?_⟩
  intro position moved placed
  simp only [Board.withCoprocessor, Array.getElem?_setIfInBounds] at placed
  split at placed
  next here =>
    split at placed
    next =>
      cases placed
      subst here
      exact ⟨kind, listed, by simpa using fit⟩
    next => cases placed
  next => exact fits.coprocessors position moved placed

theorem workload_withCoprocessor {index : UInt8} {chip : Coprocessor} (board : Board) (found : index.toNat < board.coprocessors.size)
    (id : ThreadId) : (board.withCoprocessor index.toNat chip).workload id =
      if id = .coprocessor index then chip.workload else board.workload id := by
  cases id with
  | coprocessor other =>
    by_cases same : other = index
    · subst same
      simp [workload, Board.withCoprocessor, found]
    · have apart : index.toNat ≠ other.toNat := fun alike => same (UInt8.toNat_inj.mp alike).symm
      simp [workload, Board.withCoprocessor, same, apart]
  | _ => rfl

theorem index_of_threads {index : UInt8} (present : .coprocessor index ∈ board.threads) :
    index.toNat < board.coprocessors.size := by
  simp only [threads, List.mem_cons, reduceCtorEq, List.mem_map, List.mem_range, false_or,
    ThreadId.coprocessor.injEq] at present
  obtain ⟨position, inside, rfl⟩ := present
  rw [UInt8.toNat_ofNat']
  omega

theorem withCoprocessor_same {index : Nat} {chip : Coprocessor} (found : board.coprocessors[index]? = some chip) :
    board.withCoprocessor index chip = board := by
  suffices kept : board.coprocessors.setIfInBounds index chip = board.coprocessors by rw [withCoprocessor, kept]
  refine Array.ext_getElem? fun position => ?_
  rw [Array.getElem?_setIfInBounds]
  split
  next here => rw [← here, found, if_pos (Array.getElem?_eq_some_iff.mp found).1]
  next => rfl

theorem serializeChip_yields (permitted : Permitted loads mode) (fits : board.Fits loads kinds) {id : ThreadId}
    (present : id ∈ board.threads) :
    Yields mode (visitSize kinds stack id) (board.serializeChip id stack) fun later =>
      Renewed mode loads kinds board later ∧ later.Ranged id ∧ ∀ other, board.Ranged other → later.Ranged other := by
  cases id with
  | cpu =>
    refine .of_size (.bind (board.cpu.visit_yields stack (UInt8.ofNat kinds.length) permitted) fun cpu visited => .pure
      ⟨⟨⟨visited.1 fits.cpu, fits.smp, fits.ppu, fits.latches, fits.chips, fits.coprocessors⟩, fun writing id rested => ?_,
        rfl, rfl⟩, visited.2.1, fun other before => ?_⟩) rfl
    · cases id with
      | cpu => exact (visited.2.2 writing).trans rested
      | _ => exact rested
    · cases other with
      | cpu => exact visited.2.1
      | _ => exact before
  | smp =>
    refine .of_size (.bind (board.smp.visit_yields stack) fun smp visited => .pure
      ⟨⟨⟨fits.cpu, visited.1, fits.ppu, fits.latches, fits.chips, fits.coprocessors⟩, fun writing id rested => ?_,
        rfl, rfl⟩, trivial, fun other before => ?_⟩) rfl
    · cases id with
      | smp => exact (visited.2 writing).trans rested
      | _ => exact rested
    · cases other <;> exact before
  | ppu =>
    refine .of_size (.bind (board.ppu.visit_yields stack permitted) fun ppu visited => .pure
      ⟨⟨⟨fits.cpu, fits.smp, visited.1 fits.ppu, fits.latches, fits.chips, fits.coprocessors⟩, fun writing id rested => ?_,
        rfl, rfl⟩, visited.2.1, fun other before => ?_⟩) rfl
    · cases id with
      | ppu => exact (visited.2.2 writing).trans rested
      | _ => exact rested
    · cases other with
      | ppu => exact visited.2.1
      | _ => exact before
  | coprocessor index =>
    have inside := index_of_threads present
    obtain ⟨kind, listed, fit⟩ := fits.coprocessors index.toNat _ (Array.getElem?_eq_getElem inside)
    rw [UInt8.ofNat_toNat] at fit
    rw [serializeChip_coprocessor (Array.getElem?_eq_getElem inside)]
    have size : visitSize kinds stack (.coprocessor index) = Coprocessor.visitSize stack kind := by
      simp [visitSize, listed]
    refine .of_size (.bind (Coprocessor.visit_yields stack fit) fun chip visited => .pure
      ⟨⟨fits.withCoprocessor listed visited.1, fun writing id rested => ?_, rfl, rfl⟩, trivial, fun other before => ?_⟩) size.symm
    · -- The reference is not among the chips that a workload tells of.
      by_cases reference : id = .cpu
      · subst reference
        exact rested
      · rw [rested_iff reference] at rested ⊢
        rw [workload_withCoprocessor board inside]
        split
        next same =>
          subst same
          rw [visited.2 writing]
          simpa [workload, inside] using rested
        next => exact rested
    · cases other <;> exact before

/-- Both boards have the same chip for this thread. -/
def SameChip (first second : Board) : ThreadId → Prop
  | .cpu => first.cpu = second.cpu
  | .smp => first.smp = second.smp
  | .ppu => first.ppu = second.ppu
  | .coprocessor index => first.coprocessors[index.toNat]? = second.coprocessors[index.toNat]?

namespace SameChip
variable {first second third : Board} {id other : ThreadId}

theorem refl (board : Board) (id : ThreadId) : board.SameChip board id := by cases id <;> rfl

theorem symm (same : first.SameChip second id) : second.SameChip first id := by cases id <;> exact Eq.symm same

theorem trans (same : first.SameChip second id) (alike : second.SameChip third id) : first.SameChip third id := by
  cases id <;> exact Eq.trans same alike

/-- Two boards that got the same chip for one thread still have the same chips where they had before. -/
theorem swap {later last : Board} (here : later.SameChip last id) (left : ∀ other, other ≠ id → later.SameChip first other)
    (right : ∀ other, other ≠ id → last.SameChip second other) (same : first.SameChip second other) :
    later.SameChip last other := by
  by_cases own : other = id
  · exact own ▸ here
  · exact ((left other own).trans same).trans (right other own).symm

end SameChip

theorem sameChip_cpu (cpu : Cpu) (other : ThreadId) (apart : other ≠ .cpu) : SameChip { board with cpu } board other := by
  cases other with
  | cpu => exact absurd rfl apart
  | smp | ppu | coprocessor => rfl

theorem sameChip_smp (smp : Smp) (other : ThreadId) (apart : other ≠ .smp) : SameChip { board with smp } board other := by
  cases other with
  | smp => exact absurd rfl apart
  | cpu | ppu | coprocessor => rfl

theorem sameChip_ppu (ppu : Ppu) (other : ThreadId) (apart : other ≠ .ppu) : SameChip { board with ppu } board other := by
  cases other with
  | ppu => exact absurd rfl apart
  | cpu | smp | coprocessor => rfl

theorem sameChip_coprocessor {index : UInt8} (chip : Coprocessor) (other : ThreadId) (apart : other ≠ .coprocessor index) :
    (board.withCoprocessor index.toNat chip).SameChip board other := by
  cases other with
  | coprocessor other =>
    have different : index.toNat ≠ other.toNat := fun same => apart (congrArg _ (UInt8.toNat_inj.mp same).symm)
    exact Array.getElem?_setIfInBounds_ne different
  | cpu | smp | ppu => rfl

theorem getElem?_withCoprocessor {index : UInt8} (chip : Coprocessor) (inside : index.toNat < board.coprocessors.size) :
    (board.withCoprocessor index.toNat chip).coprocessors[index.toNat]? = some chip := by
  simp [withCoprocessor, inside]

theorem smp_rested (rested : board.Rested .smp) : board.smp.continuation = .idle :=
  eq_of_beq (board.smp.workload_slices.mp (congrArg Workload.slices rested))

theorem ppu_rested (rested : board.Rested .ppu) : board.ppu.continuation = .idle :=
  eq_of_beq (board.ppu.workload_slices.mp (congrArg Workload.slices rested))

theorem coprocessor_rested {index : UInt8} {chip : Coprocessor} (found : board.coprocessors[index.toNat]? = some chip)
    (rested : board.Rested (.coprocessor index)) : Chip.atBoundary chip = true := by
  have idle : chip.workload = .idle := by simpa [Rested, workload, found] using rested
  exact chip.workload_slices.mp (congrArg Workload.slices idle)

/-- Both boards have the same in flight for this thread. -/
def SameWork (first second : Board) : ThreadId → Prop
  | .cpu => first.cpu.continuation = second.cpu.continuation
  | .smp => first.smp.continuation = second.smp.continuation
  | .ppu => first.ppu.continuation = second.ppu.continuation
  | .coprocessor index => ∀ chip rest, first.coprocessors[index.toNat]? = some chip →
      second.coprocessors[index.toNat]? = some rest → chip.SameWork rest

theorem SameWork.of_same {first second : Board} {id : ThreadId} (same : first.SameChip second id) : first.SameWork second id := by
  cases id with
  | cpu => exact congrArg Cpu.continuation same
  | smp => exact congrArg Smp.continuation same
  | ppu => exact congrArg Ppu.continuation same
  | coprocessor index =>
    intro chip rest found placed
    cases (found.symm.trans same).trans placed
    exact .refl chip

theorem SameWork.of_rested {first second : Board} {id : ThreadId} (idle : first.Rested id) (rests : second.Rested id) :
    first.SameWork second id := by
  cases id with
  | cpu => exact idle.trans rests.symm
  | smp => exact (smp_rested idle).trans (smp_rested rests).symm
  | ppu => exact (ppu_rested idle).trans (ppu_rested rests).symm
  | coprocessor index =>
    intro chip rest found placed
    exact .of_boundary (coprocessor_rested found idle) (coprocessor_rested placed rests)

theorem SameWork.congr {later first second : Board} {id : ThreadId} (same : later.SameChip first id) (work : first.SameWork second id) :
    later.SameWork second id := by
  cases id with
  | cpu => exact (congrArg Cpu.continuation same).trans work
  | smp => exact (congrArg Smp.continuation same).trans work
  | ppu => exact (congrArg Ppu.continuation same).trans work
  | coprocessor index => exact fun chip rest found => work chip rest (Eq.trans (Eq.symm same) found)

/-- What a reader has of a board after it took one chip of it. -/
structure Taken (loads : Loads) (kinds : List CoprocessorKind) (board base loaded : Board) (id : ThreadId) : Prop where
  fits : loaded.Fits loads kinds
  here : loaded.SameChip board id
  others : ∀ other, base.SameChip board other → loaded.SameChip board other
  work : ∀ other, base.SameWork board other → loaded.SameWork board other
  bus : loaded.bus = base.bus
  frame : loaded.frame = base.frame

/-- No chip is left out: continuations are passed over, or both sides have the same. -/
def Complete (stack : Bool) (board base : Board) : Prop := stack = true ∨ ∀ id, base.SameWork board id

/-- A reader took a chip if it changed no other one. -/
theorem Taken.of_swapped {loaded : Board} {id : ThreadId} (fits : loaded.Fits loads kinds) (here : loaded.SameChip board id)
    (apart : ∀ other, other ≠ id → loaded.SameChip base other) (bus : loaded.bus = base.bus) (frame : loaded.frame = base.frame) :
    Taken loads kinds board base loaded id where
  fits := fits
  here := here
  others _ same := here.swap apart (fun other _ => .refl board other) same
  work other same := by
    by_cases own : other = id
    · exact .of_same (own ▸ here)
    · exact .congr (apart other own) same
  bus := bus
  frame := frame

theorem serializeChip_transfers (fits : board.Fits loads kinds) (alike : base.Fits loads kinds) {id : ThreadId}
    (ranged : board.Ranged id) (present : id ∈ board.threads) (work : Complete stack board base) :
    ∃ loaded, Transfers (board.serializeChip id stack) (base.serializeChip id stack) board loaded ∧
      Taken loads kinds board base loaded id := by
  cases id with
  | cpu =>
    have transfers : Transfers (Chip.visit stack board.cpu) (Chip.visit stack base.cpu) board.cpu board.cpu :=
      Cpu.transfers ranged (alike.cpu.coprocessors.trans fits.cpu.coprocessors.symm) (work.imp_right fun work => work .cpu)
    have loaded : Fits loads kinds { base with cpu := board.cpu } :=
      ⟨fits.cpu, alike.smp, alike.ppu, alike.latches, alike.chips, alike.coprocessors⟩
    exact ⟨_, .bind transfers (.pure _ _), .of_swapped loaded rfl (sameChip_cpu _) rfl rfl⟩
  | smp =>
    have transfers : Transfers (Chip.visit stack board.smp) (Chip.visit stack base.smp) board.smp board.smp :=
      Smp.transfers fits.smp (work.imp_right fun work => work .smp)
    have loaded : Fits loads kinds { base with smp := board.smp } :=
      ⟨alike.cpu, fits.smp, alike.ppu, alike.latches, alike.chips, alike.coprocessors⟩
    exact ⟨_, .bind transfers (.pure _ _), .of_swapped loaded rfl (sameChip_smp _) rfl rfl⟩
  | ppu =>
    have transfers : Transfers (Chip.visit stack board.ppu) (Chip.visit stack base.ppu) board.ppu board.ppu :=
      Ppu.transfers ranged (work.imp_right fun work => work .ppu)
    have loaded : Fits loads kinds { base with ppu := board.ppu } :=
      ⟨alike.cpu, alike.smp, fits.ppu, alike.latches, alike.chips, alike.coprocessors⟩
    exact ⟨_, .bind transfers (.pure _ _), .of_swapped loaded rfl (sameChip_ppu _) rfl rfl⟩
  | coprocessor index =>
    have inside := index_of_threads present
    have inside_base : index.toNat < base.coprocessors.size := by rwa [alike.chips, ← fits.chips]
    have found := Array.getElem?_eq_getElem inside
    have placed := Array.getElem?_eq_getElem inside_base
    generalize board.coprocessors[index.toNat] = chip at found
    generalize base.coprocessors[index.toNat] = rest at placed
    obtain ⟨kind, listed, fit⟩ := fits.coprocessors index.toNat chip found
    obtain ⟨other, known, matched⟩ := alike.coprocessors index.toNat rest placed
    cases listed.symm.trans known
    rw [UInt8.ofNat_toNat] at fit matched
    rw [serializeChip_coprocessor found, serializeChip_coprocessor placed]
    have transfers : Transfers (Chip.visit stack chip) (Chip.visit stack rest) chip chip :=
      Coprocessor.transfers fit matched (work.imp_right fun work => work (.coprocessor index) rest chip placed found)
    have here : (base.withCoprocessor index.toNat chip).SameChip board (.coprocessor index) :=
      Eq.trans (getElem?_withCoprocessor chip inside_base) found.symm
    exact ⟨base.withCoprocessor index.toNat chip, .bind transfers ((Transfers.pure _ _).as (withCoprocessor_same found) rfl),
      .of_swapped (alike.withCoprocessor listed fit) here (sameChip_coprocessor chip) rfl rfl⟩

end MultiClock.Board
