import MultiClock.Proofs.FrameProgress

/-! Why a drive comes to an end. While chips are steered to their synchronization points, the reference only finishes the
instruction it is in, a dependent starts a new unit of work only while it is behind, and nobody hands control back to the
reference. -/

namespace MultiClock

variable {loads : Loads} {kinds : List CoprocessorKind}

namespace Cpu

/-- A number that every slice lowers until the reference stops at its point. -/
def burden (cpu : Cpu) : Nat :=
  match cpu.continuation with
  | .idle => 0
  | .execute _ _ cycles => 400 + max cycles.toNat 1
  | .access _ _ _ | .catchup _ => cpu.rank

theorem burden_le (cpu : Cpu) (few : cpu.coprocessors.toNat ≤ 4) : cpu.burden ≤ 655 := by
  have rank := cpu.rank_le few
  unfold burden
  cases cpu.continuation with
  | execute _ _ cycles =>
    have short := cycles.toNat_lt
    simp only
    omega
  | idle | access | catchup =>
    simp only
    omega

theorem burden_of_moves {scheduler : Scheduler} {before after : Cpu} {action : Action} (moves : before.Moves scheduler after action)
    (same : after.coprocessors = before.coprocessors) (few : before.coprocessors.toNat ≤ 4) (stays : action ≠ .stop) :
    action = .pass ∧ before.continuation = .idle ∧ after.burden ≤ 416 ∨
      action.state? = none ∧ action.units ≤ 8 ∧ after.burden < before.burden := by
  -- The rank goes down with every slice that does not step. Only the cycles need an argument of their own.
  have rank := rank_of_moves moves same few stays
  cases moves with
  | stop => exact absurd rfl stays
  | pass idle opcode operand fetched =>
    have short := cycles_le opcode operand
    refine .inl ⟨rfl, idle, ?_⟩
    simp only [burden, fetched]
    omega
  | step opcode operand cycles executing spent =>
    refine .inr ⟨rfl, Nat.le_refl 8, ?_⟩
    by_cases several : 1 < cycles
    · rw [if_pos several] at spent
      obtain ⟨more, fewer⟩ := counted_down several
      simp only [burden, executing, spent, fewer]
      omega
    · rw [if_neg several] at spent
      simp only [burden, executing, spent, Cpu.rank, Bool.false_eq_true, if_false]
      omega
  | complete opcode operand synchronized accessing completed =>
    obtain ⟨impossible, _⟩ | ⟨_, lower⟩ := rank
    · cases impossible
    · refine .inr ⟨rfl, Nat.zero_le _, ?_⟩
      have high : 321 ≤ before.rank := by
        simp only [Cpu.rank, accessing]
        split <;> omega
      rcases completed with ⟨idle, _⟩ | ⟨due, _⟩
      · simp only [burden, accessing, idle]
        omega
      · simp only [burden, accessing, due]
        exact lower
  | ask opcode operand other accessing _ _ asked =>
    obtain ⟨impossible, _⟩ | ⟨_, lower⟩ := rank
    · cases impossible
    · refine .inr ⟨rfl, Nat.zero_le _, ?_⟩
      simp only [burden, accessing, asked]
      exact lower
  | call next later level other rest catching remaining _ _ called left =>
    obtain ⟨impossible, _⟩ | ⟨_, lower⟩ := rank
    · cases impossible
    · refine .inr ⟨rfl, Nat.zero_le _, ?_⟩
      simp only [burden, catching, called]
      exact lower
  | caughtUp next catching idle =>
    refine .inr ⟨rfl, Nat.zero_le _, ?_⟩
    simp only [burden, catching, idle, Cpu.rank]
    omega

end Cpu

namespace Machine

/-- A machine whose chips are steered to their points. -/
structure Steered (loads : Loads) (kinds : List CoprocessorKind) (machine : Machine) : Prop where
  sound : machine.Sound loads kinds
  mode : machine.scheduler.mode = .synchronize
  present : machine.scheduler.active.index < machine.scheduler.threads.size

/-- Whether a thread may start one more unit of work at its point: it is not running. -/
def asleep (machine : Machine) (id : ThreadId) : Nat := if machine.scheduler.state? id = some .running then 0 else 1

theorem asleep_congr {before after : Machine} {id : ThreadId}
    (same : after.scheduler.state? id = some .running ↔ before.scheduler.state? id = some .running) :
    after.asleep id = before.asleep id := by
  simp only [asleep, same]

theorem asleep_running {machine : Machine} {id : ThreadId} (running : machine.scheduler.state? id = some .running) :
    machine.asleep id = 0 := if_pos running

theorem asleep_released {machine : Machine} {id : ThreadId} (released : machine.scheduler.state? id = some .released) :
    machine.asleep id = 1 := by
  rw [asleep, released]
  rfl

theorem asleep_le (machine : Machine) (id : ThreadId) : machine.asleep id ≤ 1 := by
  unfold asleep
  split <;> omega

/-- What the reference has left to do, and one more instruction if it may start it. -/
def burden (machine : Machine) : Nat := machine.board.cpu.burden + 1000 * machine.asleep .cpu

/-- What a dependent has left to do: the work in flight, one more unit if it may start it, and more of them while it is
behind. -/
def unrest (machine : Machine) (id : ThreadId) : Int :=
  64 * max 0 (second - (machine.scheduler.time id + (machine.board.workload id).units * second)) +
    64 * second * machine.asleep id + second * (machine.board.workload id).slices

/-- A bound for the slices that are left until some chip stops at its point. -/
def haul (machine : Machine) : Int :=
  (machine.board.cpu.dependents.map machine.unrest).sum + 4096 * second * machine.burden

/-- What the display processor has drawn and has to draw, less what the frames so far and the reference may have used up. -/
def ledger (frames : Nat) (machine : Machine) : Int :=
  machine.scheduler.time .ppu + (machine.board.workload .ppu).units * second -
    1364 * second * (frames + (machine.board.workload .ppu).frames : Nat) - 8 * second * machine.burden

variable {before after : Machine} {action : Action}

theorem Steered.turn (steered : before.Steered loads kinds) (took : Took before after action) (later : after.Sound loads kinds) :
    after.Steered loads kinds :=
  ⟨later, took.acted.mode.trans steered.mode, took.present⟩

theorem Steered.not_to_reference (steered : before.Steered loads kinds) (took : Took before after action) : action ≠ .resume .cpu := by
  rintro rfl
  have normal := took.resume_reference steered.sound
  rw [steered.mode] at normal
  cases normal

/-- A dependent goes on at its point only if it was just given control, or if it is behind. -/
theorem Steered.passes (steered : before.Steered loads kinds) (took : Took before after action) (passes : action.state? = some .running) :
    before.scheduler.state? before.scheduler.active = some .released ∨
      before.scheduler.active ≠ .cpu ∧ before.scheduler.time before.scheduler.active < 0 := by
  obtain ⟨thread, found, released | normal | ⟨dependent, behind⟩⟩ := took.passes passes
  · exact .inl ((Scheduler.state?_eq found).trans (congrArg some released))
  · rw [steered.mode] at normal
    cases normal
  · rw [← Scheduler.time_eq found] at behind
    exact .inr ⟨dependent, behind⟩

/-- Where the reference is suspended changes only when it goes on at its point, or stops there. -/
theorem Steered.reference_asleep (steered : before.Steered loads kinds) (took : Took before after action)
    (silent : action.state? = none ∨ before.scheduler.active ≠ .cpu) : after.asleep .cpu = before.asleep .cpu :=
  asleep_congr (by rw [took.state_kept (steered.not_to_reference took) (silent.imp_right Ne.symm)])

/-- The reference goes on at its point only once in a drive. -/
theorem Steered.reference_passes (steered : before.Steered loads kinds) (took : Took before after action)
    (active : before.scheduler.active = .cpu) (passes : action.state? = some .running) :
    before.asleep .cpu = 1 ∧ after.asleep .cpu = 0 := by
  have running := took.running passes
  have released := steered.passes took passes
  rw [active] at running released
  obtain released | ⟨impossible, _⟩ := released
  · exact ⟨asleep_released released, asleep_running running⟩
  · exact absurd rfl impossible

/-- A dependent's turn leaves the reference alone and hands control to nobody. -/
theorem Steered.reference_kept (steered : before.Steered loads kinds) (ready : before.Inside) (took : Took before after action)
    (actor : before.scheduler.active ≠ .cpu) :
    after.board.cpu = before.board.cpu ∧ after.asleep .cpu = before.asleep .cpu ∧ after.scheduler.active = before.scheduler.active ∧
      ∀ target, action ≠ .resume target := by
  cases took.acts steered.sound ready with
  | reference active => exact absurd active actor
  | dependent _ advances cpu =>
    have keeps : ∀ target, action ≠ .resume target := by
      rintro target rfl
      cases advances with
      | resume normal =>
        rw [steered.mode] at normal
        cases normal
    exact ⟨cpu, steered.reference_asleep took (.inr actor), took.keeps_control keeps, keeps⟩

/-- Only the reference's own turns concern its burden, and all of them lower it. -/
theorem Steered.burden_turn (few : kinds.length ≤ Cartridge.maxCoprocessors) (steered : before.Steered loads kinds)
    (ready : before.Inside) (took : Took before after action) (stays : action ≠ .stop) :
    (before.scheduler.active = .cpu → after.burden < before.burden) ∧
      (before.scheduler.active ≠ .cpu → after.burden = before.burden) := by
  have count := count_of_fits few steered.sound
  simp only [Cartridge.maxCoprocessors] at few
  cases took.acts steered.sound ready with
  | reference active moves same =>
    refine ⟨fun _ => ?_, fun dependent => absurd active dependent⟩
    unfold burden
    rcases Cpu.burden_of_moves moves same (by omega) stays with ⟨rfl, idle, low⟩ | ⟨silent, _, lower⟩
    · obtain ⟨asleep, awake⟩ := steered.reference_passes took active rfl
      rw [asleep, awake]
      omega
    · rw [steered.reference_asleep took (.inl silent)]
      exact Nat.add_lt_add_right lower _
  | dependent actor =>
    obtain ⟨cpu, asleep, _⟩ := steered.reference_kept ready took actor
    refine ⟨fun active => absurd active actor, fun _ => ?_⟩
    rw [burden, cpu, asleep, burden]

theorem unrest_nonneg (machine : Machine) (id : ThreadId) : 0 ≤ machine.unrest id := by
  have slices : (0 : Int) ≤ second * (machine.board.workload id).slices := Int.mul_nonneg (Int.natCast_nonneg _) (Int.natCast_nonneg _)
  have asleep := Int.natCast_nonneg (machine.asleep id)
  unfold unrest
  simp only [second] at slices ⊢
  omega

theorem haul_nonneg (machine : Machine) : 0 ≤ machine.haul := by
  have each : 0 ≤ (machine.board.cpu.dependents.map machine.unrest).sum := by
    refine List.sum_nonneg ?_
    intro value member
    obtain ⟨id, _, rfl⟩ := List.mem_map.mp member
    exact machine.unrest_nonneg id
  have burden : (0 : Int) ≤ 4096 * second * machine.burden :=
    Int.mul_nonneg (Int.mul_nonneg (by decide) (Int.natCast_nonneg _)) (Int.natCast_nonneg _)
  unfold haul
  linarith

/-- A thread that does not act itself does not start or stop running. -/
theorem Took.running_iff (took : Took before after action) {id : ThreadId} (other : id ≠ before.scheduler.active) :
    after.scheduler.state? id = some .running ↔ before.scheduler.state? id = some .running := by
  rw [took.acted.states]
  cases action with
  | rest | step | frame => exact Iff.rfl
  | stop | pass | passStep =>
    simp only [Action.suspends, if_neg (Ne.symm other)]
  | resume target =>
    simp only [Action.suspends]
    split
    · cases before.scheduler.state? id with
      | none => simp
      | some state => cases state <;> simp [Thread.State.release]
    · exact Iff.rfl

theorem Steered.reference_lowers (few : kinds.length ≤ Cartridge.maxCoprocessors) (steered : before.Steered loads kinds)
    (ready : before.Inside) (took : Took before after action) (reference : before.scheduler.active = .cpu)
    (moves : before.board.cpu.Moves before.scheduler after.board.cpu action)
    (same : after.board.cpu.coprocessors = before.board.cpu.coprocessors)
    (works : ∀ id, after.board.workload id = before.board.workload id) (stays : action ≠ .stop) : after.haul < before.haul := by
  have dependents := Cpu.dependents_congr same
  have lower := (steered.burden_turn few ready took stays).1 reference
  have count := count_of_fits few steered.sound
  simp only [Cartridge.maxCoprocessors] at few
  have short : action.units ≤ 8 := by
    rcases Cpu.burden_of_moves moves same (by omega) stays with ⟨rfl, _⟩ | ⟨_, short, _⟩
    · exact Nat.zero_le 8
    · exact short
  have each : ∀ id ∈ before.board.cpu.dependents, after.unrest id ≤ before.unrest id + 512 * 24576000 := by
    intro id member
    have dependent := (Cpu.index_of_dependent member).1
    have time := took.acted.dependents reference id dependent
    have back := Nat.mul_le_mul short (Scheduler.rate_of_wiring steered.sound.wired id)
    unfold unrest
    rw [works, time, asleep_congr (took.running_iff (reference ▸ dependent))]
    generalize action.units * before.scheduler.rate id = moved at back
    simp only [second]
    omega
  have total := Cpu.sum_dependents_le each
  unfold haul
  rw [dependents]
  zify at lower
  have few : (before.board.cpu.coprocessors.toNat : Int) ≤ 4 := by omega
  push_cast at total ⊢
  linarith

/-- Whatever a dependent does leaves it less to do, as long as it does not stop. -/
theorem Steered.dependent_lowers (few : kinds.length ≤ Cartridge.maxCoprocessors) (steered : before.Steered loads kinds)
    (ready : before.Inside) (took : Took before after action) (actor : before.scheduler.active ≠ .cpu)
    (advances : (before.board.workload before.scheduler.active).Advances (paceOf kinds before.scheduler.active)
      before.scheduler.mode (before.scheduler.time before.scheduler.active) (after.board.workload before.scheduler.active) action)
    (cpu : after.board.cpu = before.board.cpu)
    (others : ∀ other, other ≠ before.scheduler.active → after.board.workload other = before.board.workload other)
    (stays : action ≠ .stop) : after.haul < before.haul := by
  have burden := (steered.burden_turn few ready took stays).2 actor
  have own := took.acted.own actor
  rw [Scheduler.reference_rate steered.sound.wired] at own
  have present := ready.present
  rw [Scheduler.size_of_wiring steered.sound.wired] at present
  obtain ⟨_, _, _, keeps⟩ := steered.reference_kept ready took actor
  -- Work that starts at the point uses up a permission, or is done by a dependent that is behind and gets closer.
  have starts : action.state? = some .running → after.asleep before.scheduler.active = 0 ∧
      (before.asleep before.scheduler.active = 1 ∨ before.scheduler.time before.scheduler.active < 0) := by
    intro passes
    exact ⟨asleep_running (took.running passes), (steered.passes took passes).imp asleep_released And.right⟩
  have kept : action.state? = none → after.asleep before.scheduler.active = before.asleep before.scheduler.active :=
    fun silent => asleep_congr (by rw [took.state_kept (keeps _) (.inl silent)])
  have limit := before.asleep_le before.scheduler.active
  have lower : after.unrest before.scheduler.active < before.unrest before.scheduler.active := by
    unfold unrest
    rw [own]
    obtain begins | continues := advances.begins_or_continues
    · obtain ⟨awake, late⟩ := starts begins.running
      have short := begins.short
      have long := begins.long
      rw [begins.idle, awake]
      simp only [Workload.idle, second]
      omega
    · obtain ⟨quiet, shorter⟩ := continues.closer.resolve_left stays
      rw [← continues.spent, kept quiet]
      simp only [second]
      omega
  have still : ∀ other, other ≠ before.scheduler.active → after.unrest other = before.unrest other := by
    intro other different
    unfold unrest
    rw [took.acted.others actor other different, others other different, asleep_congr (took.running_iff different)]
  have total := steered.sound.fits.sum_dependents_lt few actor present lower still
  unfold haul
  rw [cpu, burden]
  exact Int.add_lt_add_right total _

/-- Every turn but a stop leaves less to do. -/
theorem Steered.turn_lowers (few : kinds.length ≤ Cartridge.maxCoprocessors) (steered : before.Steered loads kinds)
    (ready : before.Inside) (took : Took before after action) (stays : action ≠ .stop) : after.haul < before.haul := by
  cases took.acts steered.sound ready with
  | reference active moves same works => exact steered.reference_lowers few ready took active moves same works stays
  | dependent actor advances cpu others => exact steered.dependent_lowers few ready took actor advances cpu others stays

/-- The picture's account never goes down, until the reference stops. -/
theorem Steered.ledger_turn (few : kinds.length ≤ Cartridge.maxCoprocessors) (steered : before.Steered loads kinds)
    (ready : before.Inside) (took : Took before after action) (stays : action ≠ .stop) (frames : Nat) :
    before.ledger frames ≤ after.ledger (frames + action.frames) := by
  have burden := steered.burden_turn few ready took stays
  have count := count_of_fits few steered.sound
  simp only [Cartridge.maxCoprocessors] at few
  cases took.acts steered.sound ready with
  | reference active moves same works =>
    have lower := burden.1 active
    have time := took.acted.dependents active .ppu (by simp)
    rw [Scheduler.picture_rate steered.sound.wired] at time
    have short : action.units ≤ 8 ∧ action.frames = 0 := by
      cases moves with
      | step => exact ⟨Nat.le_refl 8, rfl⟩
      | stop => exact absurd rfl stays
      | pass | complete | ask | call | caughtUp => exact ⟨Nat.zero_le 8, rfl⟩
    unfold ledger
    rw [time, works, short.2]
    obtain ⟨short, _⟩ := short
    simp only [second]
    push_cast
    omega
  | dependent actor advances cpu others =>
    have same := burden.2 actor
    obtain ⟨_, _, _, keeps⟩ := steered.reference_kept ready took actor
    by_cases picture : before.scheduler.active = .ppu
    · have own := took.acted.own actor
      rw [Scheduler.reference_rate steered.sound.wired, picture] at own
      rw [picture] at advances
      unfold ledger
      rw [own, same]
      -- A line pays for the frame at its end, and the whole line is on the account from its start.
      obtain begins | continues := advances.begins_or_continues
      · have frames := begins.frames
        rw [begins.idle]
        simp only [Workload.idle, Workload.frameUnits, second] at frames ⊢
        push_cast
        omega
      · have frames := continues.frames
        rw [← continues.spent]
        simp only [second]
        push_cast
        omega
    · have silent : action.frames = 0 := by
        cases action with
        | frame => exact absurd (took.frame_picture steered.sound ready) picture
        | rest | step | stop | pass | passStep | resume => rfl
      unfold ledger
      rw [took.acted.others actor .ppu (Ne.symm picture), others .ppu (Ne.symm picture), same, silent]
      exact Int.le_refl _

theorem time_range (scheduler : Scheduler) (id : ThreadId) : -2 ^ 63 ≤ scheduler.time id ∧ scheduler.time id < 2 ^ 63 := by
  cases found : scheduler.thread? id with
  | none => simp [Scheduler.time, found]
  | some thread =>
    rw [Scheduler.time_eq found]
    exact ⟨thread.clock.value.le_toInt, thread.clock.value.toInt_lt⟩

/-- More slices than any drive needs. -/
def vast : Nat := 6 * (64 * (second + 2 ^ 63) + 364 * second) + 4096 * second * 1655

theorem Steered.burden_le (few : kinds.length ≤ Cartridge.maxCoprocessors) {machine : Machine} (steered : machine.Steered loads kinds) :
    machine.burden ≤ 1655 := by
  have count := count_of_fits few steered.sound
  simp only [Cartridge.maxCoprocessors] at few
  have work := machine.board.cpu.burden_le (by omega)
  have asleep := machine.asleep_le .cpu
  unfold burden
  omega

theorem Steered.haul_le (few : kinds.length ≤ Cartridge.maxCoprocessors) {machine : Machine} (steered : machine.Steered loads kinds) :
    machine.haul ≤ vast := by
  have burden := steered.burden_le few
  have count := count_of_fits few steered.sound
  have length := machine.board.cpu.length_dependents
  simp only [Cartridge.maxCoprocessors] at few
  have each := List.sum_le_card_nsmul (machine.board.cpu.dependents.map machine.unrest)
    ((64 * (second + 2 ^ 63) + 364 * second : Nat) : Int) (by
      intro value member
      obtain ⟨id, _, rfl⟩ := List.mem_map.mp member
      have range := time_range machine.scheduler id
      have slices := (machine.board.workload_le id).1
      have asleep := machine.asleep_le id
      unfold unrest
      simp only [second]
      omega)
  rw [List.length_map, nsmul_eq_mul] at each
  have number : (machine.board.cpu.dependents.length : Int) ≤ 6 := by omega
  have total := Int.mul_le_mul_of_nonneg_right number (Int.natCast_nonneg (64 * (second + 2 ^ 63) + 364 * second))
  unfold haul vast
  zify at burden
  push_cast at *
  linarith

/-- The picture's account is not overdrawn, and covers some more stops of the reference. -/
def Solvent (stops frames : Nat) (machine : Machine) : Prop :=
  -2 ^ 63 - 30000 * second + 8000 * second * stops ≤ machine.ledger frames

/-- At first it covers one stop. -/
theorem Steered.solvent (few : kinds.length ≤ Cartridge.maxCoprocessors) {machine : Machine} (steered : machine.Steered loads kinds) :
    machine.Solvent 1 0 := by
  have burden := steered.burden_le few
  have range := time_range machine.scheduler .ppu
  have small : (machine.board.workload .ppu).units ≤ 1364 ∧ (machine.board.workload .ppu).frames ≤ 1 :=
    machine.board.ppu.workload_le.2
  unfold Solvent ledger
  simp only [second]
  push_cast
  omega

/-- So the frames on the way can be counted. -/
theorem Solvent.frames_lt {stops frames : Nat} {machine : Machine} (solvent : machine.Solvent stops frames) : frames + 1 < 2 ^ 32 := by
  have range := time_range machine.scheduler .ppu
  have small : (machine.board.workload .ppu).units ≤ 1364 ∧ (machine.board.workload .ppu).frames ≤ 1 :=
    machine.board.ppu.workload_le.2
  unfold Solvent ledger at solvent
  simp only [second] at solvent
  push_cast at solvent
  omega

end Machine
end MultiClock
