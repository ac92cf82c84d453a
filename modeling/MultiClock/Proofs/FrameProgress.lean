import Mathlib.Algebra.Order.BigOperators.Group.List
import MultiClock.Proofs.NormalExecution

/-! Why a frame always completes. The picture needs so many more clock units of the display processor, and the reference
cannot get far ahead of it. Whatever the reference steps lets the other chips start only so many units of work, and every
unit of work is only so many slices. -/

namespace MultiClock

variable {loads : Loads} {kinds : List CoprocessorKind} {slack : Nat}

namespace Cpu

/-- A number that every slice of an instruction lowers, except for one that steps. -/
def rank (cpu : Cpu) : Nat :=
  match cpu.continuation with
  | .idle => 300
  | .execute _ _ cycles => max cycles.toNat 1
  | .access _ _ synchronized => if synchronized then 321 else 322
  | .catchup next => 301 + (cpu.dependents.drop next.toNat).length

theorem rank_of_moves {scheduler : Scheduler} {before after : Cpu} {action : Action} (moves : before.Moves scheduler after action)
    (same : after.coprocessors = before.coprocessors) (few : before.coprocessors.toNat ≤ 4) (stays : action ≠ .stop) :
    action = .step cycleUnits ∧ after.rank ≤ before.rank + 321 ∨ action.units = 0 ∧ after.rank < before.rank := by
  have dependents := dependents_congr same
  have length := before.length_dependents
  cases moves with
  | stop => exact absurd rfl stays
  | pass idle opcode operand fetched =>
    have short := cycles_le opcode operand
    refine .inr ⟨rfl, ?_⟩
    simp only [rank, idle, fetched]
    omega
  | step opcode operand cycles executing spent =>
    refine .inl ⟨rfl, ?_⟩
    simp only [rank, executing]
    by_cases several : 1 < cycles
    · rw [if_pos several] at spent
      obtain ⟨_, fewer⟩ := counted_down several
      simp only [spent, fewer]
      omega
    · rw [if_neg several] at spent
      simp only [spent, Bool.false_eq_true, if_false]
      omega
  | complete opcode operand synchronized accessing completed =>
    have high : 321 ≤ before.rank := by
      simp only [rank, accessing]
      split <;> omega
    refine .inr ⟨rfl, Nat.lt_of_lt_of_le ?_ high⟩
    rcases completed with ⟨idle, _⟩ | ⟨due, _⟩
    · simp only [rank, idle]
      omega
    · simp only [rank, due, dependents, List.length_drop, UInt8.toNat_zero, Nat.sub_zero]
      omega
  | ask opcode operand other accessing _ _ asked =>
    refine .inr ⟨rfl, ?_⟩
    simp [rank, accessing, asked]
  | call next later level other rest catching remaining _ _ called left =>
    refine .inr ⟨rfl, ?_⟩
    simp only [rank, catching, called, dependents, remaining, left, List.length_append, List.length_cons]
    omega
  | caughtUp next catching idle =>
    refine .inr ⟨rfl, ?_⟩
    simp only [rank, catching, idle]
    omega

theorem rank_le (cpu : Cpu) (few : cpu.coprocessors.toNat ≤ 4) : cpu.rank ≤ 400 := by
  have length := cpu.length_dependents
  unfold rank
  cases cpu.continuation with
  | idle => exact (by decide : 300 ≤ 400)
  | execute _ _ cycles =>
    have short := cycles.toNat_lt
    simp only
    omega
  | access _ _ synchronized =>
    simp only
    split <;> omega
  | catchup next =>
    simp only [List.length_drop]
    omega

/-- If each of the dependents gains a share at most, they gain no more than so many shares together. -/
theorem sum_dependents_le {cpu : Cpu} {before after : ThreadId → Int} {share : Int}
    (each : ∀ id ∈ cpu.dependents, after id ≤ before id + share) :
    (cpu.dependents.map after).sum ≤ (cpu.dependents.map before).sum + (2 + cpu.coprocessors.toNat) * share := by
  have total := List.sum_le_sum each
  rw [List.sum_map_add, List.map_const', List.sum_replicate, cpu.length_dependents, nsmul_eq_mul] at total
  exact_mod_cast total

end Cpu

namespace Ppu

/-- Lines that have yet to be drawn until the picture is complete, the given one included. -/
def linesLeft (line : Nat) : Nat := if line < 224 then 224 - line else max (262 - line) 1 + 224

/-- Clock units that have yet to be stepped until the picture is complete. -/
def unitsLeft (ppu : Ppu) : Nat :=
  match ppu.continuation with
  | .idle => 1364 * linesLeft ppu.line.toNat
  | .line dot => 1364 * (linesLeft ppu.line.toNat - 1) + 4 * (341 - dot)
  | .frame => 0
  | .endOfLine => 1364 * linesLeft (if 262 ≤ ppu.line.toNat then 0 else ppu.line.toNat)

theorem linesLeft_pos (line : Nat) : 0 < linesLeft line := by
  unfold linesLeft
  split <;> omega

/-- Except for the last visible one, a line is followed by another one. -/
theorem linesLeft_next {line : Nat} (more : line ≠ 223) :
    linesLeft (if 262 ≤ line + 1 then 0 else line + 1) + 1 = linesLeft line := by
  unfold linesLeft
  split <;> split <;> split <;> omega

theorem linesLeft_le (line : Nat) : linesLeft line ≤ 262 := by
  unfold linesLeft
  split <;> omega

theorem unitsLeft_le (ppu : Ppu) : ppu.unitsLeft ≤ 1364 * 262 := by
  have lines := linesLeft_le ppu.line.toNat
  have positive := linesLeft_pos ppu.line.toNat
  have wrapped := linesLeft_le (if 262 ≤ ppu.line.toNat then 0 else ppu.line.toNat)
  simp only [unitsLeft]
  cases ppu.continuation with
  | idle => exact Nat.mul_le_mul_left 1364 lines
  | line dot =>
    simp only
    omega
  | frame => exact Nat.zero_le _
  | endOfLine => exact Nat.mul_le_mul_left 1364 wrapped

/-- After any line but the last visible one, what is left is the lines behind it. -/
theorem linesLeft_line {line next : UInt16} (counted : next.toNat = line.toNat + 1) (more : next ≠ visibleLines) :
    linesLeft (if 262 ≤ next.toNat then 0 else next.toNat) = linesLeft line.toNat - 1 := by
  have inside : line.toNat ≠ 223 := by
    intro drawn
    refine more (UInt16.toNat_inj.mp ?_)
    rw [counted, drawn]
    rfl
  have left := linesLeft_next inside
  rw [counted]
  omega

/-- Every slice draws what it steps, except for the one that ends a run. -/
theorem Moves.unitsLeft {cx : Context} {before after : Ppu} {action : Action} (moves : before.Moves cx after action)
    (silent : action ≠ .frame) : action.units + after.unitsLeft = before.unitsLeft := by
  cases moves with
  | stop => exact Nat.zero_add _
  | pass idle =>
    have positive := linesLeft_pos before.line.toNat
    simp only [Action.units, Ppu.unitsLeft, idle, Fin.val_zero]
    omega
  | dots dot units at_dot more spent =>
    simp only [dotsPerSlice] at more spent
    simp only [Action.units, Ppu.unitsLeft, at_dot, spent, dotsPerSlice]
    omega
  | last dot units line at_dot few spent next =>
    have inside := dot.isLt
    simp only [Action.units, Ppu.unitsLeft, at_dot, spent]
    by_cases last : line = visibleLines
    · have drawn : before.line.toNat = 223 := by
        rw [last] at next
        simp only [visibleLines, UInt16.reduceToNat] at next
        omega
      simp only [if_pos last, drawn, show linesLeft 223 = 1 from rfl, Nat.sub_self, Nat.mul_zero, Nat.add_zero, Nat.zero_add]
    · simp only [if_neg last, linesLeft_line next last]
      omega
  | frame => exact absurd rfl silent
  | wrap ended defers =>
    have timeless : action.units = 0 := by cases defers <;> rfl
    simp only [timeless, Ppu.unitsLeft, ended, Nat.zero_add]
    by_cases wraps : linesPerFrame ≤ before.line
    · have past := UInt16.le_iff_toNat_le.mp wraps
      simp only [linesPerFrame, UInt16.reduceToNat] at past
      simp only [if_pos wraps, if_pos past, UInt16.toNat_zero]
    · have within := mt UInt16.le_iff_toNat_le.mpr wraps
      simp only [linesPerFrame, UInt16.reduceToNat] at within
      simp only [if_neg wraps, if_neg within]

theorem slice_unitsLeft (ppu : Ppu) (cx : Context) :
    Meets (fun _ => True) (fun result => cx.thread = .ppu →
      result.2.scheduler.transfer = some (.leave .frame) ∨
        unitsOf .ppu result.2.notices + result.1.unitsLeft = unitsOf .ppu cx.notices + ppu.unitsLeft)
      (Chip.slice ppu cx) := by
  refine ((ppu.slice_moves cx).permit fun _ _ => trivial).mono ?_
  rintro result ⟨_, action, does, moves⟩ own
  by_cases raises : action = .frame
  · subst raises
    cases does.scheduler with
    | frame left =>
      obtain ⟨_, _, same⟩ := Scheduler.leave_eq_ok.mp left
      exact .inl (congrArg Scheduler.transfer same)
  · right
    rw [does.units, if_pos own.symm, Nat.add_assoc, moves.unitsLeft raises]

end Ppu

/-- If one dependent has less than before, and the others have as much, they have less together. -/
theorem Board.Fits.sum_dependents_lt {board : Board} (fits : board.Fits loads kinds) (few : kinds.length ≤ Cartridge.maxCoprocessors)
    {id : ThreadId} (dependent : id ≠ .cpu) (present : id.index < 3 + kinds.length) {before after : ThreadId → Int}
    (lower : after id < before id) (still : ∀ other, other ≠ id → after other = before other) :
    (board.cpu.dependents.map after).sum < (board.cpu.dependents.map before).sum := by
  refine List.sum_lt_sum _ _ (fun other _ => ?_) ⟨id, fits.mem_dependents few dependent present, lower⟩
  by_cases same : other = id
  · subst same
    exact Int.le_of_lt lower
  · exact Int.le_of_eq (still other same)

/-- Only slices of the display processor draw. -/
theorem Board.slice_unitsLeft (id : ThreadId) (board : Board) (scheduler : Scheduler) :
    Meets (fun _ => True) (fun result => result.2.1.transfer = some (.leave .frame) ∨
      (if id = .ppu then unitsOf .ppu result.2.2 else 0) + result.1.ppu.unitsLeft = board.ppu.unitsLeft) (board.slice id scheduler) := by
  by_cases picture : id = .ppu
  · subst picture
    refine (board.ppu.slice_unitsLeft ⟨board.bus, scheduler, .ppu, []⟩).bind ?_
    rintro ⟨ppu, after⟩ drawn
    refine .pure ((drawn rfl).imp_right fun drawn => ?_)
    rw [if_pos rfl]
    exact drawn.trans (Nat.zero_add _)
  · refine (board.slice_keeps id scheduler).mono fun result kept => .inr ?_
    rw [if_neg picture, kept.2.2.1 picture, Nat.zero_add]

namespace Machine

/-- What a dependent may still do before it hands control to the reference for good, unless the reference steps. -/
def allowance (slack : Nat) (loads : Loads) (kinds : List CoprocessorKind) (machine : Machine) (id : ThreadId) : Int :=
  64 * (slack + (paceOf kinds id).patience + (paceOf kinds id).reach loads * second -
    (machine.scheduler.time id + (machine.board.workload id).units * second)) + second * (machine.board.workload id).slices

/-- How far the reference may still get until the picture is complete. -/
def remaining (slack : Nat) (loads : Loads) (machine : Machine) : Int :=
  machine.board.ppu.unitsLeft * second + machine.scheduler.time .ppu + slack + Cpu.workUnits loads * second

/-- A bound for the slices until the picture is complete. -/
def effort (slack : Nat) (loads : Loads) (kinds : List CoprocessorKind) (machine : Machine) : Int :=
  (machine.board.cpu.dependents.map (machine.allowance slack loads kinds)).sum + 512 * machine.remaining slack loads +
    second * machine.board.cpu.rank

variable {before after : Machine} {action : Action}

theorem Pacing.allowance_nonneg {machine : Machine} (pacing : machine.Pacing slack loads kinds) {id : ThreadId}
    (dependent : id ≠ .cpu) (present : id.index < 3 + kinds.length) : 0 ≤ machine.allowance slack loads kinds id := by
  have ahead := pacing.ahead id dependent present
  have slices : (0 : Int) ≤ second * (machine.board.workload id).slices := Int.mul_nonneg (Int.natCast_nonneg _) (Int.natCast_nonneg _)
  unfold allowance
  linarith

theorem count_of_fits (few : kinds.length ≤ Cartridge.maxCoprocessors) {machine : Machine} (sound : machine.Sound loads kinds) :
    machine.board.cpu.coprocessors.toNat = kinds.length := by
  rw [sound.fits.cpu.coprocessors, UInt8.toNat_ofNat']
  simp only [Cartridge.maxCoprocessors] at few
  omega

theorem Running.effort_nonneg (few : kinds.length ≤ Cartridge.maxCoprocessors) {machine : Machine}
    (running : machine.Running slack loads kinds) : 0 ≤ machine.effort slack loads kinds := by
  have allowances : 0 ≤ (machine.board.cpu.dependents.map (machine.allowance slack loads kinds)).sum := by
    refine List.sum_nonneg ?_
    intro value member
    obtain ⟨id, listed, rfl⟩ := List.mem_map.mp member
    have placed := Cpu.index_of_dependent listed
    rw [count_of_fits few running.sound] at placed
    exact running.pacing.allowance_nonneg placed.1 placed.2
  have behind := running.pacing.behind .ppu (by simp) (Nat.lt_add_right _ (by decide))
  rw [Scheduler.picture_rate running.sound.wired] at behind
  have drawn : (0 : Int) ≤ machine.board.ppu.unitsLeft * second := Int.mul_nonneg (Int.natCast_nonneg _) (Int.natCast_nonneg _)
  have ranked : (0 : Int) ≤ second * machine.board.cpu.rank := Int.mul_nonneg (Int.natCast_nonneg _) (Int.natCast_nonneg _)
  unfold effort remaining
  linarith

/-- A step of the reference allows the others less than what it costs itself. -/
theorem reference_lowers (few : kinds.length ≤ Cartridge.maxCoprocessors) (sound : before.Sound loads kinds)
    (took : Took before after action) (reference : before.scheduler.active = .cpu)
    (moves : before.board.cpu.Moves before.scheduler after.board.cpu action)
    (same : after.board.cpu.coprocessors = before.board.cpu.coprocessors)
    (works : ∀ id, after.board.workload id = before.board.workload id) (stays : action ≠ .stop)
    (drawn : after.board.ppu.unitsLeft = before.board.ppu.unitsLeft) :
    after.effort slack loads kinds < before.effort slack loads kinds := by
  have dependents := Cpu.dependents_congr same
  have times := took.acted.dependents reference
  have count := count_of_fits few sound
  simp only [Cartridge.maxCoprocessors] at few
  have ppu := times .ppu (by simp)
  rw [Scheduler.picture_rate sound.wired] at ppu
  unfold effort remaining
  rw [dependents, drawn, ppu]
  -- A step brings the picture closer by more than it adds to what the dependents have to catch up on.
  rcases Cpu.rank_of_moves moves same (by omega) stays with ⟨rfl, rank⟩ | ⟨still, rank⟩
  · have each : ∀ id ∈ before.board.cpu.dependents,
        after.allowance slack loads kinds id ≤ before.allowance slack loads kinds id + 512 * 24576000 := by
      intro id member
      have rate := Scheduler.rate_of_wiring sound.wired id
      have time := times id (Cpu.index_of_dependent member).1
      simp only [Action.units, Cpu.cycleUnits, UInt32.reduceToNat] at time
      unfold allowance
      rw [works, time]
      push_cast
      zify at rate
      linarith
    have total := Cpu.sum_dependents_le each
    simp only [Action.units, Cpu.cycleUnits, UInt32.reduceToNat]
    push_cast at total ⊢
    zify at rank
    have few : (before.board.cpu.coprocessors.toNat : Int) ≤ 4 := by omega
    linarith
  · have each : ∀ id ∈ before.board.cpu.dependents, after.allowance slack loads kinds id ≤ before.allowance slack loads kinds id := by
      intro id member
      have time := times id (Cpu.index_of_dependent member).1
      rw [still, Nat.zero_mul, Nat.cast_zero, Int.sub_zero] at time
      unfold allowance
      rw [works, time]
    have total := List.sum_le_sum each
    rw [still, Nat.zero_mul, Nat.cast_zero, Int.sub_zero]
    zify at rank
    push_cast
    linarith

/-- Whatever a dependent does leaves it less to do. -/
theorem dependent_lowers (few : kinds.length ≤ Cartridge.maxCoprocessors) (sound : before.Sound loads kinds)
    (ready : before.Inside) (took : Took before after action) (actor : before.scheduler.active ≠ .cpu)
    (advances : (before.board.workload before.scheduler.active).Advances (paceOf kinds before.scheduler.active)
      before.scheduler.mode (before.scheduler.time before.scheduler.active) (after.board.workload before.scheduler.active) action)
    (cpu : after.board.cpu = before.board.cpu)
    (others : ∀ other, other ≠ before.scheduler.active → after.board.workload other = before.board.workload other)
    (stays : action ≠ .stop)
    (drawn : (if before.scheduler.active = .ppu then action.units else 0) + after.board.ppu.unitsLeft = before.board.ppu.unitsLeft) :
    after.effort slack loads kinds < before.effort slack loads kinds := by
  have own := took.acted.own actor
  rw [Scheduler.reference_rate sound.wired] at own
  have present := ready.present
  rw [Scheduler.size_of_wiring sound.wired] at present
  have picture : after.remaining slack loads = before.remaining slack loads := by
    unfold remaining
    by_cases same : before.scheduler.active = .ppu
    · rw [same] at own
      rw [if_pos same] at drawn
      rw [own, ← drawn]
      push_cast
      omega
    · rw [if_neg same, Nat.zero_add] at drawn
      rw [drawn, took.acted.others actor .ppu (Ne.symm same)]
  -- No share changes but that of the acting dependent.
  have lower : after.allowance slack loads kinds before.scheduler.active < before.allowance slack loads kinds before.scheduler.active := by
    unfold allowance
    rw [own]
    obtain begins | continues := advances.begins_or_continues
    · have short := begins.short
      have long := begins.long
      rw [begins.idle]
      simp only [Workload.idle]
      zify at short long
      push_cast
      linarith
    · obtain ⟨_, shorter⟩ := continues.closer.resolve_left stays
      rw [← continues.spent]
      zify at shorter
      push_cast
      linarith
  have still : ∀ other, other ≠ before.scheduler.active →
      after.allowance slack loads kinds other = before.allowance slack loads kinds other := by
    intro other different
    unfold allowance
    rw [took.acted.others actor other different, others other different]
  have total := sound.fits.sum_dependents_lt few actor present lower still
  unfold effort
  rw [picture, cpu]
  linarith

/-- More slices than any run needs. -/
def ample (slack : Nat) : Nat :=
  6 * (64 * (2 * slack + 30696 * second + 4768 * 24576000) + 300 * second) +
    512 * (2 * slack + (357368 + 30696 + 4768) * second) + 400 * second

theorem Pacing.allowance_le {machine : Machine} (sound : machine.Sound loads kinds) (pacing : machine.Pacing slack loads kinds)
    {id : ThreadId} (dependent : id ≠ .cpu) (present : id.index < 3 + kinds.length) :
    machine.allowance slack loads kinds id ≤ (64 * (2 * slack + 30696 * second + 4768 * 24576000) + 300 * second : Nat) := by
  have behind := pacing.behind id dependent present
  have bounds := paceOf_bounds kinds id loads
  have slices := (machine.board.workload_le id).1
  have spent : (0 : Int) ≤ (machine.board.workload id).units * second := Int.mul_nonneg (Int.natCast_nonneg _) (Int.natCast_nonneg _)
  have units : Cpu.workUnits loads ≤ 4768 := by cases loads <;> decide
  have work := Nat.mul_le_mul units (Scheduler.rate_of_wiring sound.wired id)
  unfold allowance
  zify at work slices bounds
  push_cast at *
  linarith

theorem Running.effort_le (few : kinds.length ≤ Cartridge.maxCoprocessors) {machine : Machine}
    (running : machine.Running slack loads kinds) : machine.effort slack loads kinds ≤ ample slack := by
  have count := count_of_fits few running.sound
  have length := machine.board.cpu.length_dependents
  simp only [Cartridge.maxCoprocessors] at few
  have allowances := List.sum_le_card_nsmul (machine.board.cpu.dependents.map (machine.allowance slack loads kinds))
    ((64 * (2 * slack + 30696 * second + 4768 * 24576000) + 300 * second : Nat) : Int) (by
      intro value member
      obtain ⟨id, listed, rfl⟩ := List.mem_map.mp member
      have placed := Cpu.index_of_dependent listed
      rw [count] at placed
      exact running.pacing.allowance_le running.sound placed.1 placed.2)
  rw [List.length_map, nsmul_eq_mul] at allowances
  have number : (machine.board.cpu.dependents.length : Int) ≤ 6 := by omega
  have total := Int.mul_le_mul_of_nonneg_right number
    (Int.natCast_nonneg (64 * (2 * slack + 30696 * second + 4768 * 24576000) + 300 * second))
  have ahead := running.pacing.ahead .ppu (by simp) (Nat.lt_add_right _ (by decide))
  have spent : (0 : Int) ≤ (machine.board.workload .ppu).units * second := Int.mul_nonneg (Int.natCast_nonneg _) (Int.natCast_nonneg _)
  have bounds := paceOf_bounds kinds .ppu loads
  have lines := machine.board.ppu.unitsLeft_le
  have units : Cpu.workUnits loads ≤ 4768 := by cases loads <;> decide
  have rank := machine.board.cpu.rank_le (by omega)
  unfold effort remaining ample
  zify at bounds lines units rank
  push_cast at *
  linarith

/-- Every turn that does not end the run brings the picture closer. -/
theorem Running.turn_lowers (few : kinds.length ≤ Cartridge.maxCoprocessors) (running : before.Running slack loads kinds)
    (ready : before.Inside) (took : Took before after action) {notices : List Notice} (turn : Turn before notices after)
    (units : ∀ id, unitsOf id notices = if id = before.scheduler.active then action.units else 0) (stays : action.leaves = false) :
    after.effort slack loads kinds < before.effort slack loads kinds := by
  have drawn : (if before.scheduler.active = .ppu then action.units else 0) + after.board.ppu.unitsLeft = before.board.ppu.unitsLeft := by
    obtain ⟨middle, sliced⟩ := turn.sliced
    rcases (Board.slice_unitsLeft _ _ _).of_ok sliced with left | drawn
    · have entered := took.entered
      rw [stays] at entered
      cases turn with
      | stays alike free =>
        cases sliced.symm.trans alike
        rw [free] at left
        cases left
      | resumes alike asked =>
        cases sliced.symm.trans alike
        rw [asked] at left
        cases left
      | leaves => cases entered
    · rw [units] at drawn
      simp only [eq_comm] at drawn ⊢
      by_cases own : before.scheduler.active = .ppu <;> simp_all
  have goes_on := took.goes_on running.mode
  cases took.acts running.sound ready with
  | reference active moves same works =>
    rw [if_neg (by simp [active]), Nat.zero_add] at drawn
    exact reference_lowers few running.sound took active moves same works goes_on drawn
  | dependent actor advances cpu others =>
    exact dependent_lowers few running.sound ready took actor advances cpu others goes_on drawn

/-- So a run that is given enough slices always ends with a frame. What every turn keeps holds at its end. -/
theorem Running.enter_ends [Host ω] [ChipSet σ] {board : σ → Board} (wraps : ChipSet.Wraps board)
    (few : kinds.length ≤ Cartridge.maxCoprocessors) (small : slack ≤ 2 ^ 60) (also : Scheduler → σ → Prop)
    (keeps : ∀ scheduler chips, Running slack loads kinds ⟨scheduler, board chips⟩ → Inside ⟨scheduler, board chips⟩ →
      also scheduler chips → ∀ action later moved middle notices,
      Sliced board loads kinds scheduler chips action later moved middle notices → also later moved)
    {scheduler : Scheduler} {chips : σ} (running : Running slack loads kinds ⟨scheduler, board chips⟩)
    (outside : scheduler.entered = false) (begins : also { scheduler.transferTo scheduler.active with entered := true } chips)
    {budget : Nat} (enough : ample slack < budget) {host : ω} :
    (scheduler.enter budget chips).Meets (fun _ => False)
      (fun result _ => Framed slack loads kinds ⟨result.1, board result.2⟩ ∧ also result.1 result.2) host := by
  refine Scheduler.enter_meets outside running.present ?_
  refine Scheduler.runSlices_ends
    (fun scheduler chips => (Running slack loads kinds ⟨scheduler, board chips⟩ ∧ Inside ⟨scheduler, board chips⟩) ∧ also scheduler chips)
    (fun scheduler chips => Framed slack loads kinds ⟨scheduler, board chips⟩ ∧ also scheduler chips)
    (fun scheduler chips => (effort slack loads kinds ⟨scheduler, board chips⟩).toNat) ?_
    ⟨⟨running.enter, .entering running.present⟩, begins⟩ ?_
  · intro scheduler chips holds
    obtain ⟨⟨running, ready⟩, held⟩ := holds
    refine running.slice_turned wraps few small ready _ _ ?_ ?_
    · intro action later moved middle notices sliced still inside
      refine ⟨⟨⟨still, inside⟩, keeps scheduler chips running ready held action later moved middle notices sliced⟩, ?_⟩
      have stays : action.leaves = false := by
        have entered := inside.entered
        rw [sliced.took.entered] at entered
        cases leaves : action.leaves <;> simp_all
      have lower := running.turn_lowers few ready sliced.took sliced.turn sliced.units stays
      have low := still.effort_nonneg few
      omega
    · intro later moved middle notices sliced framed
      exact ⟨framed, keeps scheduler chips running ready held .frame later moved middle notices sliced⟩
  · exact Nat.lt_of_le_of_lt (Int.toNat_le.mpr (running.enter.effort_le few)) enough

end Machine
end MultiClock
