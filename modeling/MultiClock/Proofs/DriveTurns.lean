import Mathlib.Data.List.Count
import MultiClock.Proofs.SteeredTurns

/-! What a drive leaves behind. A driven dependent stops level with the reference, and nobody else has moved. The reference
stops undisturbed, or it is disturbed by a chip that was behind, and every chip disturbs it at most once. -/

namespace MultiClock

variable {loads : Loads} {kinds : List CoprocessorKind}

namespace Machine

variable {before after : Machine} {action : Action}

/-- The active thread has just stopped at its point. -/
structure Stopped (machine : Machine) : Prop where
  state : machine.scheduler.state? machine.scheduler.active = some .parked
  level : machine.scheduler.active = .cpu ∨ 0 ≤ machine.scheduler.time machine.scheduler.active
  clear : machine.scheduler.desynchronized = false

theorem Took.time_stop (took : Took before after .stop) {id : ThreadId} (dependent : id ≠ .cpu) :
    after.scheduler.time id = before.scheduler.time id := by
  by_cases reference : before.scheduler.active = .cpu
  · rw [took.acted.dependents reference id dependent]
    simp [Action.units]
  · by_cases own : id = before.scheduler.active
    · subst own
      rw [took.acted.own reference]
      simp [Action.units]
    · exact took.acted.others reference id own

theorem Took.stopped (took : Took before after .stop) : after.Stopped := by
  have active : after.scheduler.active = before.scheduler.active := took.active
  obtain ⟨thread, found, stays⟩ := took.stops rfl
  rw [Scheduler.Passing, not_or, not_or, not_and, ← Scheduler.time_eq found] at stays
  refine ⟨?_, ?_, took.acted.flag⟩
  · rw [active, took.acted.states]
    exact if_pos rfl
  · rw [active]
    by_cases reference : before.scheduler.active = .cpu
    · exact .inl reference
    · rw [took.time_stop reference]
      exact .inr (Int.not_lt.mp (stays.2.2 reference))

/-- Whether the stop counts as undisturbed. -/
theorem Took.event_stop (took : Took before after .stop) :
    after.scheduler.event = if before.scheduler.desynchronized then .desynchronized else .synchronized :=
  took.event_eq rfl rfl

/-- A stop costs the picture's account nothing, except for the reference's. -/
theorem Steered.solvent_stop (steered : before.Steered loads kinds)
    (ready : before.Inside) (took : Took before after .stop) {stops frames : Nat}
    (solvent : before.Solvent (stops + if before.scheduler.active = .cpu then 1 else 0) frames) : after.Solvent stops frames := by
  have time := @Took.time_stop _ _ took .ppu (by simp)
  have asleep := after.asleep_le .cpu
  unfold Solvent ledger at solvent ⊢
  rw [time]
  cases took.acts steered.sound ready with
  | reference active moves same works =>
    rw [works]
    rw [if_pos active] at solvent
    cases moves with
    | stop idle same =>
      have work : after.board.cpu.burden = 0 := by simp only [same, Cpu.burden, idle]
      have burden : after.burden ≤ 1000 := by
        unfold burden
        omega
      simp only [second] at solvent ⊢
      push_cast at solvent ⊢
      omega
  | dependent actor advances cpu others =>
    obtain ⟨_, kept, _⟩ := steered.reference_kept ready took actor
    have burden : after.burden = before.burden := by rw [burden, cpu, kept, burden]
    have work : after.board.workload .ppu = before.board.workload .ppu := by
      by_cases picture : .ppu = before.scheduler.active
      · rw [picture]
        cases advances with
        | stop before_idle after_idle => rw [before_idle, after_idle]
      · exact others .ppu picture
    rw [burden, work]
    simpa [actor] using solvent

def behind (machine : Machine) (id : ThreadId) : Bool := decide (machine.scheduler.time id < 0)

/-- How many dependents may still disturb the reference. -/
def due (machine : Machine) : Nat :=
  match machine.board.cpu.continuation with
  | .idle => machine.asleep .cpu * machine.board.cpu.dependents.length
  | .execute _ _ _ | .access _ _ false => machine.board.cpu.dependents.length
  | .access _ _ true => machine.board.cpu.dependents.countP machine.behind
  | .catchup next => (machine.board.cpu.dependents.drop next.toNat).countP machine.behind

/-- The dependents that the reference may still call while it waits for one of them. -/
def uncalled (machine : Machine) : Nat :=
  match machine.board.cpu.continuation with
  | .access _ _ true =>
    machine.board.cpu.dependents.countP fun id => machine.behind id && id != machine.scheduler.active
  | .catchup next =>
    (machine.board.cpu.dependents.drop next.toNat).countP fun id => machine.behind id && id != machine.scheduler.active
  | _ => machine.board.cpu.dependents.length

theorem due_le (machine : Machine) : machine.due ≤ machine.board.cpu.dependents.length := by
  have asleep := Nat.mul_le_mul_right machine.board.cpu.dependents.length (machine.asleep_le .cpu)
  unfold due
  cases machine.board.cpu.continuation with
  | idle =>
    simp only
    omega
  | execute => exact Nat.le_refl _
  | access _ _ synchronized =>
    cases synchronized with
    | true => exact List.countP_le_length
    | false => exact Nat.le_refl _
  | catchup next => exact Nat.le_trans List.countP_le_length (by simp)

/-- While the reference is in the middle of an instruction, it is running. -/
theorem Sound.reference_running {machine : Machine} (sound : machine.Sound .own kinds) (busy : machine.board.cpu.continuation ≠ .idle) :
    machine.asleep .cpu = 0 := by
  have size := Scheduler.size_of_wiring sound.wired
  obtain ⟨thread, found⟩ := @Scheduler.found_of_lt machine.scheduler .cpu (by simp [ThreadId.index]; omega)
  have state := Scheduler.state?_eq found
  refine asleep_running (state.trans (congrArg some ?_))
  by_contra other
  exact busy (sound.suspended rfl .cpu thread.state state other)

/-- Dependents that have only moved forward are no more behind than before. -/
theorem due_mono (cpu : after.board.cpu = before.board.cpu) (asleep : after.asleep .cpu = before.asleep .cpu)
    (forward : ∀ id, id ≠ .cpu → before.scheduler.time id ≤ after.scheduler.time id) : after.due ≤ before.due := by
  have behind : ∀ id ∈ before.board.cpu.dependents, after.behind id = true → before.behind id = true := by
    intro id member late
    have moved := forward id (Cpu.index_of_dependent member).1
    simp only [Machine.behind, decide_eq_true_eq] at late ⊢
    omega
  unfold due
  rw [cpu, asleep]
  cases before.board.cpu.continuation with
  | idle | execute => exact Nat.le_refl _
  | access _ _ synchronized =>
    cases synchronized with
    | true => exact List.countP_mono_left behind
    | false => exact Nat.le_refl _
  | catchup next => exact List.countP_mono_left fun id member => behind id (List.mem_of_mem_drop member)

/-- As long as the reference does not wait for anyone, it is owed no more disturbances than before. -/
theorem Steered.due_turn (steered : before.Steered .own kinds) (ready : before.Inside) (took : Took before after action)
    (reference : before.scheduler.active = .cpu) (stays : action ≠ .stop) (keeps : ∀ target, action ≠ .resume target) :
    after.due ≤ before.due := by
  cases took.acts steered.sound ready with
  | dependent actor => exact absurd reference actor
  | reference _ moves same =>
    have dependents := Cpu.dependents_congr same
    have rests : action.state? = none → before.board.cpu.continuation ≠ .idle → after.asleep .cpu = 0 := by
      intro silent busy
      exact (steered.reference_asleep took (.inl silent)).trans (steered.sound.reference_running busy)
    -- From the access on only dependents count that are behind, and without a step the reference leaves nobody behind.
    cases moves with
    | stop => exact absurd rfl stays
    | ask _ _ target | call _ _ _ target => exact absurd rfl (keeps target)
    | pass idle opcode operand fetched =>
      obtain ⟨released, _⟩ := steered.reference_passes took reference rfl
      simp only [due, idle, fetched, released, dependents, Nat.one_mul, Nat.le_refl]
    | step opcode operand cycles executing spent =>
      have all := after.due_le
      have whole : before.due = before.board.cpu.dependents.length := by simp only [due, executing]
      rw [dependents] at all
      exact whole ▸ all
    | complete opcode operand synchronized accessing completed =>
      rcases completed with ⟨idle, _⟩ | ⟨catching, _⟩
      · simp only [due, idle, rests rfl (by simp [accessing]), Nat.zero_mul, Nat.zero_le]
      · have behind : ∀ id ∈ before.board.cpu.dependents, after.behind id = true → before.behind id = true := by
          intro id member late
          have time := took.acted.dependents reference id (Cpu.index_of_dependent member).1
          simp only [Machine.behind, decide_eq_true_eq, time, Action.units] at late ⊢
          omega
        have fewer := List.countP_mono_left behind
        have all : before.board.cpu.dependents.countP before.behind ≤ before.board.cpu.dependents.length := List.countP_le_length
        simp only [due, accessing, catching, UInt8.toNat_zero, List.drop_zero, dependents]
        cases synchronized with
        | true => exact fewer
        | false => exact Nat.le_trans fewer all
    | caughtUp next catching idle =>
      simp only [due, idle, rests rfl (by simp [catching]), Nat.zero_mul, Nat.zero_le]

/-- The dependent that disturbs the reference is one of those it is owed. -/
theorem Steered.due_resume (steered : before.Steered loads kinds) (ready : before.Inside) {target : ThreadId}
    (took : Took before after (.resume target)) (reference : before.scheduler.active = .cpu) : after.uncalled < before.due := by
  have active : after.scheduler.active = target := took.active
  have behind : ∀ id ∈ before.board.cpu.dependents, after.behind id = before.behind id := by
    intro id member
    have time := took.acted.dependents reference id (Cpu.index_of_dependent member).1
    simp only [Machine.behind, time, Action.units, Nat.zero_mul, Nat.cast_zero, Int.sub_zero]
  cases took.acts steered.sound ready with
  | dependent actor => exact absurd reference actor
  | reference _ moves same =>
    have dependents := Cpu.dependents_congr same
    cases moves with
    | ask opcode operand _ accessing accessed _ asked =>
      simp only [uncalled, due, accessing, asked, dependents]
      refine List.countP_lt_length_iff.mpr ⟨target, Cpu.accessed_mem accessed, ?_⟩
      simp [active]
    | call next later level _ rest catching remaining _ late called left =>
      have member : ∀ id ∈ rest, id ∈ before.board.cpu.dependents := by
        intro id listed
        rw [← left] at listed
        exact List.mem_of_mem_drop listed
      have fewer : rest.countP (fun id => after.behind id && id != target) ≤ rest.countP before.behind := by
        refine List.countP_mono_left fun id listed late => ?_
        rw [Bool.and_eq_true, behind id (member id listed)] at late
        exact late.1
      simp only [uncalled, due, catching, called, dependents, remaining, left, active, List.countP_append]
      rw [List.countP_cons_of_pos (by simpa [Machine.behind] using late)]
      omega

/-- While the reference waits for a dependent, it waits for the same others. -/
theorem Steered.uncalled_turn (steered : before.Steered loads kinds) (ready : before.Inside) (took : Took before after action)
    (actor : before.scheduler.active ≠ .cpu) : after.uncalled = before.uncalled := by
  obtain ⟨cpu, _, active, _⟩ := steered.reference_kept ready took actor
  have waits : ∀ id, (after.behind id && id != after.scheduler.active) = (before.behind id && id != before.scheduler.active) := by
    intro id
    rw [active]
    by_cases own : id = before.scheduler.active
    · simp [own]
    · rw [behind, took.acted.others actor id own, behind]
  simp only [uncalled, cpu, waits]

/-- A dependent that has stopped is not behind any more. -/
theorem Stopped.due_le {machine : Machine} (stopped : machine.Stopped) (dependent : machine.scheduler.active ≠ .cpu) :
    machine.due ≤ machine.uncalled := by
  have others : ∀ id, machine.behind id = true → (machine.behind id && id != machine.scheduler.active) = true := by
    intro id late
    rw [Bool.and_eq_true]
    refine ⟨late, bne_iff_ne.mpr ?_⟩
    rintro rfl
    simp only [behind, decide_eq_true_eq] at late
    have level := stopped.level.resolve_left dependent
    omega
  have total := machine.due_le
  unfold due at total ⊢
  unfold uncalled
  cases at_work : machine.board.cpu.continuation with
  | idle =>
    simp only [at_work] at total
    exact total
  | execute => exact Nat.le_refl _
  | access _ _ synchronized =>
    cases synchronized with
    | true => exact List.countP_mono_left fun id _ => others id
    | false => exact Nat.le_refl _
  | catchup next => exact List.countP_mono_left fun id _ => others id

end Machine
end MultiClock
