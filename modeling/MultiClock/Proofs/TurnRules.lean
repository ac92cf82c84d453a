import MultiClock.Proofs.MachineTurns

/-! Rules for the loop that interleaves the chips. What holds inside the simulation may depend on how many slices are
left, so the same rules serve for a run that may be cut short and for one that has to come to an end. -/

namespace MultiClock

/-- Chips that are built around others, such as a board. What else they hold does not matter to their slices. -/
def ChipSet.Wraps [ChipSet σ] [ChipSet τ] (view : σ → τ) : Prop :=
  ∀ id chips scheduler, ChipSet.slice id (view chips) scheduler =
    (ChipSet.slice id chips scheduler).map fun result => (view result.1, result.2)

/-- A board is built around itself. -/
theorem Board.wraps : ChipSet.Wraps (fun board : Board => board) := by
  intro id board scheduler
  cases ChipSet.slice id board scheduler <;> rfl

namespace Scheduler

/-- What holds after a slice and the transfer of control that it asked for. -/
def Turned (inside outside : Scheduler → σ → Prop) (result : σ × Scheduler × List Notice) : Prop :=
  match result.2.1.transfer with
  | none => inside result.2.1 result.1
  | some (.resume target) => inside (result.2.1.transferTo target) result.1
  | some (.leave event) => outside { result.2.1 with event, transfer := none, entered := false } result.1

theorem Turned.mono {inside weaker outside wider : Scheduler → σ → Prop} {result : σ × Scheduler × List Notice}
    (turned : Turned inside outside result) (within : ∀ scheduler chips, inside scheduler chips → weaker scheduler chips)
    (beyond : ∀ scheduler chips, outside scheduler chips → wider scheduler chips) : Turned weaker wider result := by
  unfold Turned at turned ⊢
  split at turned
  · exact within _ _ turned
  · exact within _ _ turned
  · exact beyond _ _ turned

variable [ChipSet σ] [Host ω] {permitted : Fault → Prop}

theorem runSlices_meets (inside : Nat → Scheduler → σ → Prop) (outside : Scheduler → σ → Prop)
    (used : ∀ scheduler chips, inside 0 scheduler chips → permitted .exhausted)
    (turn : ∀ left scheduler chips, inside (left + 1) scheduler chips →
      Meets permitted (Turned (inside left) outside) (ChipSet.slice scheduler.active chips scheduler))
    (budget : Nat) {scheduler : Scheduler} {chips : σ} {host : ω} (begins : inside budget scheduler chips) :
    (scheduler.runSlices budget chips).Meets permitted (fun result _ => outside result.1 result.2) host := by
  induction budget generalizing scheduler chips host with
  | zero => exact .throw (used scheduler chips begins)
  | succ budget ih =>
    rw [runSlices]
    have sliced : (Run.ofExcept (ChipSet.slice scheduler.active chips scheduler)).Meets permitted
        (fun result _ => Turned (inside budget) outside result) host := .ofExcept (turn budget scheduler chips begins)
    refine sliced.bind ?_
    rintro ⟨moved, later, notices⟩ told turned
    simp only [Turned] at turned ⊢
    refine .after_reportAll ?_
    cases asked : later.transfer with
    | none =>
      simp only [asked] at turned
      exact ih turned
    | some transfer =>
      cases transfer with
      | resume target =>
        simp only [asked] at turned
        exact .after_report (ih turned)
      | leave event =>
        simp only [asked] at turned
        exact .after_report (.pure turned)

/-- A run that keeps an invariant leaves with it, or is cut short. -/
theorem runSlices_keeps (inside outside : Scheduler → σ → Prop) (cut : permitted .exhausted)
    (turn : ∀ scheduler chips, inside scheduler chips →
      Meets permitted (Turned inside outside) (ChipSet.slice scheduler.active chips scheduler))
    (budget : Nat) {scheduler : Scheduler} {chips : σ} {host : ω} (begins : inside scheduler chips) :
    (scheduler.runSlices budget chips).Meets permitted (fun result _ => outside result.1 result.2) host :=
  runSlices_meets (fun _ => inside) outside (fun _ _ _ => cut) (fun _ => turn) budget begins

/-- A run in which every slice lowers a measure leaves before the measure is used up. -/
theorem runSlices_ends (inside outside : Scheduler → σ → Prop) (measure : Scheduler → σ → Nat)
    (turn : ∀ scheduler chips, inside scheduler chips → Meets permitted
      (Turned (fun later moved => inside later moved ∧ measure later moved < measure scheduler chips) outside)
      (ChipSet.slice scheduler.active chips scheduler))
    {budget : Nat} {scheduler : Scheduler} {chips : σ} {host : ω} (begins : inside scheduler chips)
    (enough : measure scheduler chips < budget) :
    (scheduler.runSlices budget chips).Meets permitted (fun result _ => outside result.1 result.2) host := by
  refine runSlices_meets (fun left later moved => inside later moved ∧ measure later moved < left) outside ?_ ?_ budget
    ⟨begins, enough⟩
  · intro scheduler chips holds
    exact absurd holds.2 (Nat.not_lt_zero _)
  · intro left scheduler chips holds
    refine (turn scheduler chips holds.1).mono fun result turned => ?_
    refine turned.mono (fun later moved lower => ⟨lower.1, ?_⟩) fun _ _ => id
    exact Nat.lt_of_lt_of_le lower.2 (Nat.lt_succ_iff.mp holds.2)

theorem enter_meets {scheduler : Scheduler} {chips : σ} {host : ω} {budget : Nat} {post : Scheduler × σ → ω → Prop}
    (outside : scheduler.entered = false) (present : scheduler.active.index < scheduler.threads.size)
    (runs : (runSlices budget { scheduler.transferTo scheduler.active with entered := true } chips).Meets permitted post host) :
    (scheduler.enter budget chips).Meets permitted post host := by
  obtain ⟨thread, found⟩ := found_of_lt present
  rw [enter, if_neg (by simp [outside]), if_neg (by simp [found])]
  exact runs

end Scheduler

namespace Machine

variable {loads : Loads} {kinds : List CoprocessorKind} {permitted : Fault → Prop}

/-- A machine inside the simulation, in front of a slice. -/
structure Inside (machine : Machine) : Prop where
  entered : machine.scheduler.entered = true
  free : machine.scheduler.transfer = none
  present : machine.scheduler.active.index < machine.scheduler.threads.size

theorem Took.inside {before after : Machine} {action : Action} (took : Took before after action)
    (stays : action.leaves = false) : after.Inside where
  entered := by rw [took.entered, stays]; rfl
  free := took.free
  present := took.present

/-- One slice of chips that are built around a board, and the transfer of control after it. -/
structure Sliced [ChipSet σ] (board : σ → Board) (loads : Loads) (kinds : List CoprocessorKind) (scheduler : Scheduler) (chips : σ)
    (action : Action) (later : Scheduler) (moved : σ) (middle : Scheduler) (notices : List Notice) : Prop where
  sliced : ChipSet.slice scheduler.active chips scheduler = .ok (moved, middle, notices)
  turn : Turn ⟨scheduler, board chips⟩ notices ⟨later, board moved⟩
  took : Took ⟨scheduler, board chips⟩ ⟨later, board moved⟩ action
  units : ∀ id, unitsOf id notices = if id = scheduler.active then action.units else 0
  sound : Sound loads kinds ⟨later, board moved⟩

/-- The board inside makes the same slice. -/
theorem Sliced.shown [ChipSet σ] {board : σ → Board} (wraps : ChipSet.Wraps board) {scheduler : Scheduler} {chips : σ}
    {action : Action} {later middle : Scheduler} {moved : σ} {notices : List Notice}
    (sliced : Sliced board loads kinds scheduler chips action later moved middle notices) :
    ChipSet.slice scheduler.active (board chips) scheduler = .ok (board moved, middle, notices) := by
  rw [wraps, sliced.sliced]
  rfl

/-- The transfer of control after a slice changes no clock. -/
theorem Sliced.alike [ChipSet σ] {board : σ → Board} (wraps : ChipSet.Wraps board) {scheduler : Scheduler} {chips : σ}
    {action : Action} {later middle : Scheduler} {moved : σ} {notices : List Notice}
    (sliced : Sliced board loads kinds scheduler chips action later moved middle notices) :
    later.shape = middle.shape ∧ later.time = middle.time := by
  have shown := sliced.shown wraps
  cases sliced.turn with
  | stays same | leaves same =>
    cases shown.symm.trans same
    exact ⟨rfl, rfl⟩
  | resumes same =>
    cases shown.symm.trans same
    exact ⟨Scheduler.shape_transferTo _ _, funext (Scheduler.time_transferTo _ _)⟩

/-- A slice of a sound machine breaks off with nothing but an overflow, and is one of a turn. -/
theorem Sound.slice_turned [ChipSet σ] {board : σ → Board} (wraps : ChipSet.Wraps board)
    (few : kinds.length ≤ Cartridge.maxCoprocessors) {scheduler : Scheduler} {chips : σ}
    (sound : Sound loads kinds ⟨scheduler, board chips⟩) (ready : Inside ⟨scheduler, board chips⟩)
    (calm : ¬ scheduler.Calm → permitted .clockOverflow) (inside outside : Scheduler → σ → Prop)
    (goes : ∀ action later moved middle notices, Sliced board loads kinds scheduler chips action later moved middle notices →
      if action.leaves then outside later moved else inside later moved) :
    Meets permitted (Scheduler.Turned inside outside) (ChipSet.slice scheduler.active chips scheduler) := by
  have indexed := Scheduler.indexed_of_wiring few sound.wired
  have some_thread : 0 < scheduler.threads.size := by
    rw [Scheduler.size_of_wiring sound.wired]
    omega
  have set : Board.Prepared loads kinds scheduler.active scheduler (board chips) :=
    ⟨⟨indexed, ready.entered, rfl, ready.free, ready.present, some_thread⟩, sound.wired, few, sound.fits⟩
  have comes := Board.slice_comes loads kinds (board chips) scheduler scheduler.active
  rw [wraps] at comes
  cases sliced : ChipSet.slice scheduler.active chips scheduler with
  | error fault =>
    rw [sliced] at comes
    obtain ⟨rfl, wild⟩ := comes.2 set
    exact calm wild
  | ok result =>
    obtain ⟨moved, middle, notices⟩ := result
    have shown : ChipSet.slice scheduler.active (board chips) scheduler = .ok (board moved, middle, notices) := by
      rw [wraps, sliced]
      rfl
    -- Whether control stays inside depends on the action alone, not on how the loop ends the turn.
    have went : ∀ later, Turn ⟨scheduler, board chips⟩ notices ⟨later, board moved⟩ → Sound loads kinds ⟨later, board moved⟩ →
        (later.entered = true → inside later moved) ∧ (later.entered = false → outside later moved) := by
      intro later turn still
      obtain ⟨action, took, units⟩ := turn.took few sound ready.entered ready.free ready.present
      have held := goes action later moved middle notices ⟨sliced, turn, took, units, still⟩
      have entered : later.entered = !action.leaves := took.entered
      rw [entered]
      cases leaves : action.leaves <;> simp_all
    have entered : middle.entered = true :=
      ((((Board.disciplined _ _ _).of_ok shown).1.kept indexed).entered).trans ready.entered
    have still := sound.slice few ready.entered shown
    simp only [Meets, Scheduler.Turned]
    cases asked : middle.transfer with
    | none => exact (went _ (.stays shown asked) still).1 entered
    | some transfer =>
      cases transfer with
      | resume target => exact (went _ (.resumes shown asked) (still.transferTo target)).1 entered
      | leave event => exact (went _ (.leaves shown asked) (still.withScheduler rfl fun _ => rfl)).2 rfl

end Machine
end MultiClock
