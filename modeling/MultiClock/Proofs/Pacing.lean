import MultiClock.Proofs.TurnRules

/-! How far the clocks of the chips can drift apart. A dependent falls behind only by what the reference steps until it
lets the dependent catch up, and gets ahead only by the unit of work that it starts while it is still patient. -/

namespace MultiClock

variable {loads : Loads} {kinds : List CoprocessorKind} {slack : Nat}

namespace Workload.Pace

/-- The clock units of the longest unit of work that can be in flight. A snapshot may hold a longer one than any chip
would start. -/
def reach (pace : Workload.Pace) : Loads → Nat
  | .own => pace.longest
  | .any => max pace.longest 6120

theorem longest_le (pace : Workload.Pace) (loads : Loads) : pace.longest ≤ pace.reach loads := by
  cases loads with
  | own => exact Nat.le_refl _
  | any => exact Nat.le_max_left _ _

end Workload.Pace

def CoprocessorKind.pace : CoprocessorKind → Workload.Pace
  | multiplier => Multiplier.pace
  | rtc => Rtc.pace

/-- The clock units of the reference in a second. -/
abbrev second : Nat := 21477272

def paceOf (kinds : List CoprocessorKind) : ThreadId → Workload.Pace
  | .cpu => .prompt 0 0
  | .smp => Smp.pace second
  | .ppu => Ppu.pace
  | .coprocessor index => (kinds[index.toNat]?.map CoprocessorKind.pace).getD (.prompt 0 0)

theorem paceOf_patience (kinds : List CoprocessorKind) (id : ThreadId) : -1 ≤ (paceOf kinds id).patience := by
  cases id with
  | cpu | ppu => exact Int.le_refl _
  | smp => exact Int.le_trans (by decide) (Int.natCast_nonneg _)
  | coprocessor index =>
    simp only [paceOf]
    cases kinds[index.toNat]? with
    | none => exact Int.le_refl _
    | some kind => cases kind <;> exact Int.le_refl _

theorem paceOf_bounds (kinds : List CoprocessorKind) (id : ThreadId) (loads : Loads) :
    (paceOf kinds id).patience ≤ 24576 * second ∧ (paceOf kinds id).reach loads ≤ 6120 := by
  have prompt : ∀ longest shortest, longest ≤ 6120 → (Workload.Pace.prompt longest shortest).patience ≤ 24576 * second ∧
      (Workload.Pace.prompt longest shortest).reach loads ≤ 6120 := by
    intro longest shortest small
    refine ⟨Int.le_trans (Int.negSucc_le_zero 0) (by decide), ?_⟩
    cases loads with
    | own => exact small
    | any => exact Nat.max_le.mpr ⟨small, Nat.le_refl _⟩
  cases id with
  | cpu => exact prompt 0 0 (by decide)
  | smp =>
    refine ⟨Int.le_refl _, ?_⟩
    cases loads with
    | own => exact (by decide : 72 ≤ 6120)
    | any => exact Nat.max_le.mpr ⟨(by decide : 72 ≤ 6120), Nat.le_refl _⟩
  | ppu => exact prompt Workload.frameUnits Workload.frameUnits (by decide)
  | coprocessor index =>
    simp only [paceOf]
    cases kinds[index.toNat]? with
    | none => exact prompt 0 0 (by decide)
    | some kind =>
      cases kind with
      | multiplier => exact prompt Multiplier.latency.toNat Multiplier.idleCycles.toNat (by decide)
      | rtc => exact prompt 1 1 (by decide)

namespace Board

theorem Fits.pace {board : Board} (fits : board.Fits loads kinds) (id : ThreadId) : board.pace second id = paceOf kinds id := by
  cases id with
  | cpu | smp | ppu => rfl
  | coprocessor index =>
    simp only [Board.pace, paceOf]
    cases found : board.coprocessors[index.toNat]? with
    | none =>
      have missing := Array.getElem?_eq_none_iff.mp found
      rw [fits.chips] at missing
      rw [List.getElem?_eq_none missing]
      rfl
    | some chip =>
      obtain ⟨kind, listed, fit⟩ := fits.coprocessors index.toNat chip found
      rw [listed]
      cases chip with
      | multiplier => cases fit.1; rfl
      | rtc => cases fit.1; rfl

/-- The threads that the reference keeps in step are all the others. -/
theorem Fits.mem_dependents {board : Board} (few : kinds.length ≤ Cartridge.maxCoprocessors) (fits : board.Fits loads kinds)
    {id : ThreadId} (dependent : id ≠ .cpu) (present : id.index < 3 + kinds.length) : id ∈ board.cpu.dependents := by
  have count : board.cpu.coprocessors.toNat = kinds.length := by
    rw [fits.cpu.coprocessors, UInt8.toNat_ofNat']
    simp only [Cartridge.maxCoprocessors] at few
    omega
  cases id with
  | cpu => exact absurd rfl dependent
  | smp | ppu => simp [Cpu.dependents]
  | coprocessor index =>
    simp only [ThreadId.index] at present
    simp only [Cpu.dependents, List.mem_cons, reduceCtorEq, List.mem_map, List.mem_range, false_or]
    exact ⟨index.toNat, by omega, congrArg ThreadId.coprocessor UInt8.ofNat_toNat⟩

/-- The reference is about to let this dependent catch up. -/
def Awaited (board : Board) (id : ThreadId) : Prop :=
  ∃ next, board.cpu.continuation = .catchup next ∧ id ∈ board.cpu.dependents.drop next.toNat

end Board

namespace Machine

/-- The reference is driven to its synchronization point and has no more work to do before it. -/
structure Finishing (machine : Machine) : Prop where
  mode : machine.scheduler.mode = .synchronize
  state : machine.scheduler.state? .cpu ≠ some .released
  work : machine.board.cpu.continuation = .idle ∨ ∃ next, machine.board.cpu.continuation = .catchup next

/-- A dependent that may have fallen behind by more than the units since the last catching up. -/
def Late (machine : Machine) (id : ThreadId) : Prop :=
  machine.scheduler.active = id ∨ machine.board.Awaited id ∨ machine.Finishing

/-- The bounds of all clocks. The slack is what a loaded clock may be off. -/
structure Pacing (slack : Nat) (loads : Loads) (kinds : List CoprocessorKind) (machine : Machine) : Prop where
  behind : ∀ id, id ≠ .cpu → id.index < 3 + kinds.length →
    -(slack + Cpu.workUnits loads * machine.scheduler.rate id : Int) ≤ machine.scheduler.time id
  caughtUp : ∀ id, id ≠ .cpu → id.index < 3 + kinds.length → ¬ machine.Late id →
    -(slack + machine.board.cpu.catchupUnits.toNat * machine.scheduler.rate id : Int) ≤ machine.scheduler.time id
  ahead : ∀ id, id ≠ .cpu → id.index < 3 + kinds.length →
    machine.scheduler.time id + (machine.board.workload id).units * second ≤
      slack + (paceOf kinds id).patience + (paceOf kinds id).reach loads * second

/-- Nothing has moved since the bounds held. -/
theorem Pacing.same {before after : Machine} (pacing : before.Pacing slack loads kinds)
    (shape : after.scheduler.shape = before.scheduler.shape)
    (times : ∀ id, after.scheduler.time id = before.scheduler.time id) (cpu : after.board.cpu = before.board.cpu)
    (works : ∀ id, after.board.workload id = before.board.workload id)
    (late : ∀ id, before.Late id → after.Late id) : after.Pacing slack loads kinds where
  behind id dependent present := by
    rw [times, Scheduler.rate_of_shape shape]
    exact pacing.behind id dependent present
  caughtUp id dependent present early := by
    rw [times, cpu, Scheduler.rate_of_shape shape]
    exact pacing.caughtUp id dependent present (mt (late id) early)
  ahead id dependent present := by
    rw [times, works]
    exact pacing.ahead id dependent present

variable {before after : Machine} {action : Action}

/-- Whose turn it was: the reference's, or that of a dependent that keeps its pace. -/
inductive Acts (kinds : List CoprocessorKind) (before after : Machine) (action : Action) : Prop
  | reference (active : before.scheduler.active = .cpu) (moves : before.board.cpu.Moves before.scheduler after.board.cpu action)
      (coprocessors : after.board.cpu.coprocessors = before.board.cpu.coprocessors)
      (works : ∀ id, after.board.workload id = before.board.workload id) : Acts kinds before after action
  | dependent (actor : before.scheduler.active ≠ .cpu)
      (advances : (before.board.workload before.scheduler.active).Advances (paceOf kinds before.scheduler.active)
        before.scheduler.mode (before.scheduler.time before.scheduler.active) (after.board.workload before.scheduler.active) action)
      (cpu : after.board.cpu = before.board.cpu)
      (others : ∀ other, other ≠ before.scheduler.active → after.board.workload other = before.board.workload other) :
      Acts kinds before after action

/-- Every thread that can be active has a chip. -/
theorem Took.acts (sound : before.Sound loads kinds) (ready : before.Inside) (took : Took before after action) :
    Acts kinds before after action := by
  have turns := took.turns
  have present := ready.present
  rw [Scheduler.size_of_wiring sound.wired] at present
  generalize same : before.scheduler.active = acting at turns present
  cases turns with
  | reference moves coprocessors works => exact .reference same moves coprocessors works
  | dependent actor advances cpu others =>
    subst same
    rw [Scheduler.reference_rate sound.wired, sound.fits.pace] at advances
    exact .dependent actor advances cpu others
  | absent missing =>
    have outside := Array.getElem?_eq_none_iff.mp missing
    rw [sound.fits.chips] at outside
    simp only [ThreadId.index] at present
    omega

/-- Only in normal execution does a dependent hand control to the reference. -/
theorem Took.resume_reference (sound : before.Sound loads kinds) (took : Took before after (.resume .cpu)) :
    before.scheduler.mode = .run := by
  have level := sound.reference
  have turns := took.turns
  generalize before.scheduler.active = actor at turns
  cases turns with
  | reference moves =>
    cases moves with
    | ask _ _ _ _ _ behind => omega
    | call _ _ _ _ _ _ _ _ behind => omega
  | dependent _ advances =>
    cases advances with
    | resume normal => exact normal
  | absent _ rests => cases rests

/-- While the reference is about to rest, it stays so. -/
theorem Finishing.turn (finishing : before.Finishing) (sound : before.Sound loads kinds) (took : Took before after action) :
    after.Finishing := by
  obtain ⟨mode, state, work⟩ := finishing
  refine ⟨took.acted.mode.trans mode, ?_, ?_⟩
  · rw [took.acted.states]
    cases action with
    | rest | step | frame => exact state
    | stop | pass | passStep =>
      simp only [Action.suspends]
      split <;> simp_all
    | resume target =>
      simp only [Action.suspends]
      split
      next same =>
        subst same
        rw [took.resume_reference sound] at mode
        cases mode
      next => exact state
  · have turns := took.turns
    cases active : before.scheduler.active with
    | smp | ppu | coprocessor =>
      rw [active] at turns
      cases turns with
      | dependent _ _ cpu => rwa [cpu]
      | _ => simp_all
    | cpu =>
      rw [active] at turns
      cases turns with
      | dependent different => exact absurd rfl different
      | reference moves =>
        cases moves with
        | stop idle same => rwa [same]
        | pass idle =>
          obtain ⟨thread, found, passing⟩ := took.passes rfl
          rw [active] at found passing
          -- To go on takes a permission, normal execution, or a dependent that is behind.
          rcases passing with released | normal | ⟨dependent, _⟩
          · exact absurd ((Scheduler.state?_eq found).trans (congrArg some released)) state
          · rw [normal] at mode
            cases mode
          · exact absurd rfl dependent
        | step _ _ _ busy | complete _ _ _ busy | ask _ _ _ busy =>
          rw [busy] at work
          simp at work
        | call _ later _ _ _ _ _ _ _ called => exact .inr ⟨later, called⟩
        | caughtUp _ _ idle => exact .inl idle

/-- While the reference executes an instruction, it has let everyone catch up. -/
theorem not_late_of_executing {machine : Machine} (reference : machine.scheduler.active = .cpu) {opcode : Cpu.Opcode}
    {operand cycles : UInt8} (executing : machine.board.cpu.continuation = .execute opcode operand cycles) {id : ThreadId}
    (dependent : id ≠ .cpu) : ¬ machine.Late id := by
  rintro (active | ⟨next, catching, _⟩ | ⟨_, _, work⟩)
  · exact dependent (active.symm.trans reference)
  · cases executing.symm.trans catching
  · rw [executing] at work
    simp at work

section reference
variable (took : Took before after action) (reference : before.scheduler.active = .cpu)
  (moves : before.board.cpu.Moves before.scheduler after.board.cpu action)
include took reference moves

/-- After a turn of the reference a dependent is late no longer because it is not behind. -/
theorem Late.caughtUp (sound : before.Sound loads kinds) (same : after.board.cpu.coprocessors = before.board.cpu.coprocessors)
    {id : ThreadId} (dependent : id ≠ .cpu) (late : before.Late id) (early : ¬ after.Late id) :
    action.units = 0 ∧ 0 ≤ before.scheduler.time id := by
  rcases late with active | ⟨next, catching, awaited⟩ | finishing
  · exact absurd (active.symm.trans reference) dependent
  · rcases moves.visits same catching awaited with rfl | again | level
    · exact absurd (.inl took.active) early
    · exact absurd (.inr (.inl again)) early
    · exact level
  · exact absurd (.inr (.inr (finishing.turn sound took))) early

/-- The reference's turn keeps the bounds: every step is counted until the next catching up. -/
theorem Pacing.reference_turn (few : kinds.length ≤ Cartridge.maxCoprocessors) (sound : before.Sound loads kinds)
    (later : after.Sound loads kinds) (pacing : before.Pacing slack loads kinds)
    (same : after.board.cpu.coprocessors = before.board.cpu.coprocessors)
    (works : ∀ id, after.board.workload id = before.board.workload id) : after.Pacing slack loads kinds := by
  have rates := Scheduler.rate_of_shape took.acted.shape
  have times := took.acted.dependents reference
  refine ⟨fun id dependent present => ?_, fun id dependent present early => ?_, fun id dependent present => ?_⟩
  · rw [times id dependent, rates]
    -- The reference only steps within an instruction, and there every dependent is level with the work before it.
    rcases moves.executing_or_timeless with ⟨opcode, operand, cycles, executing, rfl⟩ | timeless
    · have level := pacing.caughtUp id dependent present (not_late_of_executing reference executing dependent)
      have fits := sound.fits.cpu.units
      simp only [executing] at fits
      have within : before.board.cpu.catchupUnits.toNat + 8 ≤ Cpu.workUnits loads := by omega
      have scaled := Nat.mul_le_mul_right (before.scheduler.rate id) within
      rw [Nat.add_mul] at scaled
      simp only [Action.units, Cpu.cycleUnits, UInt32.reduceToNat]
      push_cast
      zify at scaled
      linarith
    · simpa [timeless] using pacing.behind id dependent present
  · rw [times id dependent, rates]
    by_cases late : before.Late id
    · obtain ⟨timeless, level⟩ := late.caughtUp took reference moves sound same dependent early
      have floor : (0 : Int) ≤ slack + after.board.cpu.catchupUnits.toNat * before.scheduler.rate id := by positivity
      rw [timeless, Nat.zero_mul, Nat.cast_zero]
      linarith
    · have bound := pacing.caughtUp id dependent present late
      rcases moves.counts with counted | due
      · rw [counted]
        push_cast
        linarith
      · exact absurd (.inr (.inl ⟨0, due, later.fits.mem_dependents few dependent present⟩)) early
  · rw [times id dependent, works]
    have bound := pacing.ahead id dependent present
    have spent : (0 : Int) ≤ (action.units * before.scheduler.rate id : Nat) := Int.natCast_nonneg _
    linarith

end reference

/-- A dependent's turn moves no clock but its own, and that one only within the unit of work it was patient to start. -/
theorem Pacing.dependent_turn (sound : before.Sound loads kinds) (pacing : before.Pacing slack loads kinds)
    (took : Took before after action) (actor : before.scheduler.active ≠ .cpu)
    (advances : (before.board.workload before.scheduler.active).Advances (paceOf kinds before.scheduler.active)
      before.scheduler.mode (before.scheduler.time before.scheduler.active) (after.board.workload before.scheduler.active) action)
    (cpu : after.board.cpu = before.board.cpu)
    (others : ∀ other, other ≠ before.scheduler.active → after.board.workload other = before.board.workload other)
    (starts : before.board.workload before.scheduler.active = .idle → action.state? = some .running →
      before.scheduler.time before.scheduler.active ≤ slack + (paceOf kinds before.scheduler.active).patience) :
    after.Pacing slack loads kinds := by
  have rates := Scheduler.rate_of_shape took.acted.shape
  have own := took.acted.own actor
  rw [Scheduler.reference_rate sound.wired] at own
  have spent : (0 : Int) ≤ (action.units * second : Nat) := Int.natCast_nonneg _
  -- What excuses a dependent for being behind outlasts the slices of other dependents.
  have late : ∀ id, id ≠ before.scheduler.active → before.Late id → after.Late id := by
    rintro id different (active | ⟨next, catching, awaited⟩ | finishing)
    · exact absurd active.symm different
    · exact .inr (.inl ⟨next, cpu ▸ catching, cpu ▸ awaited⟩)
    · exact .inr (.inr (finishing.turn sound took))
  refine ⟨fun id dependent present => ?_, fun id dependent present early => ?_, fun id dependent present => ?_⟩
  · rw [rates]
    have bound := pacing.behind id dependent present
    by_cases same : id = before.scheduler.active
    · subst same
      rw [own]
      linarith
    · rwa [took.acted.others actor id same]
  · rw [rates, cpu]
    by_cases same : id = before.scheduler.active
    · subst same
      have floor : (0 : Int) ≤ slack + before.board.cpu.catchupUnits.toNat * before.scheduler.rate before.scheduler.active := by
        positivity
      have active := took.active
      cases advances with
      | resume _ level =>
        rw [own]
        linarith
      | rest | step | stop | pass | passStep | frame => exact absurd (.inl active) early
    · rw [took.acted.others actor id same]
      exact pacing.caughtUp id dependent present (mt (late id same) early)
  · by_cases same : id = before.scheduler.active
    · subst same
      have bound := pacing.ahead _ dependent present
      have longest := (paceOf kinds before.scheduler.active).longest_le loads
      rw [own]
      -- A whole unit of work is accounted for at its start, where patience bounds the lead. Later slices only pay it off.
      obtain begins | continues := advances.begins_or_continues
      · have early := starts begins.idle begins.running
        have brief := begins.brief
        push_cast
        zify at brief longest
        linarith
      · rw [← continues.spent] at bound
        push_cast at bound ⊢
        linarith
    · rw [took.acted.others actor id same, others id same]
      exact pacing.ahead id dependent present

/-- A turn keeps the bounds, as long as nobody starts a unit of work too far ahead. -/
theorem Pacing.turn (few : kinds.length ≤ Cartridge.maxCoprocessors) (sound : before.Sound loads kinds)
    (later : after.Sound loads kinds) (ready : before.Inside) (pacing : before.Pacing slack loads kinds)
    (took : Took before after action)
    (starts : before.scheduler.active ≠ .cpu → before.board.workload before.scheduler.active = .idle →
      action.state? = some .running →
      before.scheduler.time before.scheduler.active ≤ slack + (paceOf kinds before.scheduler.active).patience) :
    after.Pacing slack loads kinds := by
  cases took.acts sound ready with
  | reference active moves same works => exact Pacing.reference_turn took active moves few sound later pacing same works
  | dependent actor advances cpu others => exact pacing.dependent_turn sound took actor advances cpu others (starts actor)

/-- Bounded clocks are far from their limits. -/
theorem Pacing.calm {machine : Machine} (few : kinds.length ≤ Cartridge.maxCoprocessors) (sound : machine.Sound loads kinds)
    (pacing : machine.Pacing slack loads kinds) (small : slack ≤ 2 ^ 60) : machine.scheduler.Calm := by
  have indexed := Scheduler.indexed_of_wiring few sound.wired
  intro thread member
  have found := indexed.found member
  have rate := Scheduler.rate_of_wiring sound.wired thread.id
  refine ⟨?_, ?_⟩
  · rw [← Scheduler.rate_eq found]
    exact Nat.le_trans rate (by decide)
  · rw [← Scheduler.time_eq found]
    by_cases reference : thread.id = .cpu
    · rw [reference, sound.reference]
      decide
    · have present := Scheduler.lt_of_found found
      rw [Scheduler.size_of_wiring sound.wired] at present
      have low := pacing.behind thread.id reference present
      have high := pacing.ahead thread.id reference present
      have work : (Cpu.workUnits loads : Int) * machine.scheduler.rate thread.id ≤ 4768 * 24576000 := by
        have units : Cpu.workUnits loads ≤ 4768 := by cases loads <;> decide
        have scaled := Nat.mul_le_mul units rate
        zify at scaled
        exact scaled
      have pace := paceOf_bounds kinds thread.id loads
      have spent : (0 : Int) ≤ (machine.board.workload thread.id).units * second :=
        Int.mul_nonneg (Int.natCast_nonneg _) (Int.natCast_nonneg _)
      simp only [second] at high spent pace
      omega

end Machine
end MultiClock
