import Mathlib.Algebra.Order.Field.Basic
import Mathlib.Algebra.Order.Field.Rat
import Mathlib.Data.List.Induction
import Mathlib.Tactic.Linarith
import Mathlib.Tactic.Ring
import MultiClock.Proofs.ActionEffects
import MultiClock.Proofs.Wiring

/-! Clocks count exactly. After any steps of the threads, in any order, a clock is the difference of the
units that both domains stepped, each scaled by the frequency of the other, so its sign compares two
instants as fractions of a second. Nothing but the sums of the units matters, as long as no operation
overflows. -/

namespace MultiClock

theorem Meets.exists_ok {permitted : Fault → Prop} {post : α → Prop} {result : Except Fault α}
    (meets : Meets permitted post result) (never : ∀ fault, ¬ permitted fault) : ∃ value, result = .ok value ∧ post value := by
  cases result with
  | ok value => exact ⟨value, rfl, meets⟩
  | error fault => exact absurd meets (never fault)

/-- The units of its own domain that a thread steps in a sequence of steps. -/
def unitsStepped (id : ThreadId) (steps : List (ThreadId × UInt32)) : Nat :=
  (steps.map fun step => if step.1 = id then step.2.toNat else 0).sum

theorem unitsStepped_concat (id : ThreadId) (steps : List (ThreadId × UInt32)) (step : ThreadId × UInt32) :
    unitsStepped id (steps ++ [step]) = unitsStepped id steps + if step.1 = id then step.2.toNat else 0 := by
  simp [unitsStepped]

theorem unitsStepped_perm (id : ThreadId) {steps reordered : List (ThreadId × UInt32)} (same : reordered.Perm steps) :
    unitsStepped id reordered = unitsStepped id steps :=
  (same.map _).sum_nat

theorem unitsStepped_le (id : ThreadId) (steps : List (ThreadId × UInt32)) :
    unitsStepped id steps ≤ (steps.map fun step => step.2.toNat).sum := by
  induction steps with
  | nil => exact Nat.le_refl _
  | cons step steps ih =>
    simp only [unitsStepped, List.map_cons, List.sum_cons] at ih ⊢
    split <;> omega

theorem ThreadId.index_of_named {position : Nat} {id : ThreadId} (named : ofIndex? position = some id) : id.index = position := by
  match position with
  | 0 | 1 | 2 =>
    cases named
    rfl
  | position + 3 =>
    simp only [ofIndex?, Option.ite_none_right_eq_some, Option.some.injEq] at named
    obtain ⟨small, rfl⟩ := named
    simp only [index, UInt8.toNat_ofNat']
    omega

namespace Scheduler
variable {scheduler later last next : Scheduler} {steps reordered : List (ThreadId × UInt32)} {id : ThreadId} {units : UInt32}

def stepAll : List (ThreadId × UInt32) → Scheduler → Except Fault Scheduler
  | [], scheduler => .ok scheduler
  | (id, units) :: rest, scheduler => do
    let (_, later) ← scheduler.step id units
    stepAll rest later

theorem stepAll_append (first rest : List (ThreadId × UInt32)) (scheduler : Scheduler) :
    stepAll (first ++ rest) scheduler = stepAll first scheduler >>= stepAll rest := by
  induction first generalizing scheduler with
  | nil => rfl
  | cons step first ih =>
    simp only [List.cons_append, stepAll]
    cases scheduler.step step.1 step.2 with
    | ok stepped => exact ih stepped.2
    | error fault => rfl

/-- How far a thread is ahead of the reference if both stepped these units. -/
def difference (scheduler : Scheduler) (steps : List (ThreadId × UInt32)) (id : ThreadId) : Int :=
  unitsStepped id steps * scheduler.rate .cpu - unitsStepped .cpu steps * scheduler.rate id

/-- No operation of any of the steps overflows: neither a product nor the clock that it is added to or
subtracted from. -/
structure Fits (scheduler : Scheduler) (steps : List (ThreadId × UInt32)) : Prop where
  forward : ∀ earlier id (units : UInt32), earlier ++ [(id, units)] <+: steps → id ≠ .cpu →
    units.toNat * scheduler.rate .cpu < 0x8000000000000000 ∧
      scheduler.difference (earlier ++ [(id, units)]) id < 0x8000000000000000
  back : ∀ earlier (units : UInt32), earlier ++ [(.cpu, units)] <+: steps →
    ∀ id : ThreadId, id ≠ .cpu → id.index < scheduler.threads.size →
      units.toNat * scheduler.rate id < 0x8000000000000000 ∧
        -0x8000000000000000 ≤ scheduler.difference (earlier ++ [(.cpu, units)]) id

theorem Fits.before {step : ThreadId × UInt32} (fits : scheduler.Fits (steps ++ [step])) : scheduler.Fits steps where
  forward earlier id units within := fits.forward earlier id units (within.trans (List.prefix_append steps [step]))
  back earlier units within := fits.back earlier units (within.trans (List.prefix_append steps [step]))

/-- The scheduler after a reset and some steps: only clocks moved, and each by exactly what it should. -/
structure Counted (scheduler : Scheduler) (steps : List (ThreadId × UInt32)) (later : Scheduler) : Prop where
  threads : later = { scheduler.reset with threads := later.threads }
  shape : later.shape = scheduler.shape
  state : ∀ id, later.state? id = scheduler.reset.state? id
  reference : later.time .cpu = 0
  dependents : ∀ id : ThreadId, id ≠ .cpu → id.index < scheduler.threads.size →
    later.time id = scheduler.difference steps id

theorem time_reset (scheduler : Scheduler) (id : ThreadId) : scheduler.reset.time id = 0 := by
  simp only [time, thread?, reset, Array.getElem?_map]
  cases scheduler.threads[id.index]? <;> rfl

theorem Counted.start (scheduler : Scheduler) : scheduler.Counted [] scheduler.reset where
  threads := rfl
  shape := scheduler.shape_reset
  state _ := rfl
  reference := scheduler.time_reset .cpu
  dependents id _ _ := by simp [time_reset, difference, unitsStepped]

theorem Counted.step {clock : Int64} (counted : scheduler.Counted steps later) (indexed : scheduler.Indexed)
    (stepped : later.step id units = .ok (clock, next)) : scheduler.Counted (steps ++ [(id, units)]) next := by
  have rate := rate_of_shape counted.shape
  have effect := step_eq_ok (indexed.of_shape counted.shape) stepped
  have threads : next = { scheduler.reset with threads := next.threads } := by
    rw [effect.threads, counted.threads]
  refine ⟨threads, effect.shape.trans counted.shape, fun other => (effect.state other).trans (counted.state other), ?_, ?_⟩
  · by_cases reference : id = .cpu
    · rw [effect.reference reference, counted.reference]
    · have kept := effect.others reference .cpu (Ne.symm reference)
      rw [time, kept, ← time, counted.reference]
  · intro other dependent inside
    have known := counted.dependents other dependent inside
    simp only [difference, unitsStepped_concat] at known ⊢
    by_cases reference : id = .cpu
    · subst id
      rw [effect.dependents rfl other dependent, known, rate, if_neg (Ne.symm dependent), if_pos rfl]
      push_cast
      ring
    · rw [if_neg reference]
      by_cases own : id = other
      · subst id
        rw [effect.own dependent, known, rate, if_pos rfl]
        push_cast
        ring
      · rw [time, effect.others reference other (Ne.symm own), ← time, known, if_neg own]
        simp

/-- Steps that end well leave exact clocks. -/
theorem Counted.of_steps (indexed : scheduler.Indexed) (stepped : stepAll steps scheduler.reset = .ok last) :
    scheduler.Counted steps last := by
  induction steps using List.reverseRecOn generalizing last with
  | nil =>
    cases stepped
    exact .start scheduler
  | append_singleton steps step ih =>
    rw [stepAll_append] at stepped
    obtain ⟨middle, earlier, stepped⟩ := Except.bind_eq_ok stepped
    obtain ⟨⟨clock, next⟩, stepped, ended⟩ := Except.bind_eq_ok stepped
    cases ended
    exact (ih earlier).step indexed stepped

private theorem rewind_all (fits : ∀ thread ∈ scheduler.threads, thread.id ≠ .cpu →
      units.toNat * thread.clock.frequency.toNat < 0x8000000000000000 ∧
        -0x8000000000000000 ≤ thread.clock.value.toInt - (units.toNat * thread.clock.frequency.toNat : Nat)) :
    ∃ threads, rewindDependents units scheduler.threads = .ok threads := by
  have each : ∀ thread ∈ scheduler.threads, Meets (fun _ => False) (fun _ : Thread => True)
      (if thread.id = .cpu then pure thread else do
        return { thread with clock := ← thread.clock.rewind units }) := by
    intro thread member
    split
    next => trivial
    next dependent =>
      apply Meets.bind ((thread.clock.rewind_fits units).permit fun _ overflow => overflow.2 (fits thread member dependent))
      intro clock _
      trivial
  obtain ⟨threads, returned, _⟩ := (Array.mapM_meets scheduler.threads each).exists_ok fun _ => id
  exact ⟨threads, returned⟩

/-- A step that fits is made. -/
theorem Counted.step_exists (counted : scheduler.Counted steps later) (indexed : scheduler.Indexed)
    (inside : id.index < scheduler.threads.size) (fits : scheduler.Fits (steps ++ [(id, units)])) :
    ∃ clock next, later.step id units = .ok (clock, next) := by
  have rate := rate_of_shape counted.shape
  have size := size_of_shape counted.shape
  have ordered := indexed.of_shape counted.shape
  -- A step of the reference moves all other clocks back, a step of a dependent its own one forward.
  by_cases reference : id = .cpu
  · subst id
    have room := fits.back steps units List.prefix_rfl
    have rewound : ∃ threads, rewindDependents units later.threads = .ok threads := by
      apply rewind_all
      intro thread member dependent
      have found := ordered.found member
      have placed : thread.id.index < scheduler.threads.size := size ▸ lt_of_found found
      have fits := room thread.id dependent placed
      have now := counted.dependents thread.id dependent placed
      rw [time_eq found] at now
      rw [← rate, rate_eq found] at fits
      simp only [difference, unitsStepped_concat, if_neg (Ne.symm dependent), if_pos, ← rate thread.id, rate_eq found] at fits now
      refine ⟨fits.1, ?_⟩
      rw [now]
      push_cast at fits ⊢
      linarith [fits.2]
    obtain ⟨threads, rewound⟩ := rewound
    refine ⟨0, { later with threads }, ?_⟩
    simp only [Scheduler.step, if_pos, rewound]
    rfl
  · have room := fits.forward steps id units List.prefix_rfl reference
    have now := counted.dependents id reference inside
    obtain ⟨base, atCpu⟩ := (found_of_lt (size ▸ Nat.lt_of_le_of_lt (Nat.zero_le _) inside) : ∃ thread, later.thread? .cpu = some thread)
    obtain ⟨own, found⟩ := (found_of_lt (size ▸ inside) : ∃ thread, later.thread? id = some thread)
    rw [time_eq found] at now
    rw [← rate, rate_eq atCpu] at room
    simp only [difference, unitsStepped_concat, if_neg reference, if_pos, ← rate .cpu, rate_eq atCpu] at room now
    have above : own.clock.value.toInt + (units.toNat * base.clock.frequency.toNat : Nat) < 0x8000000000000000 := by
      have above := room.2
      rw [now]
      push_cast at above ⊢
      linarith
    obtain ⟨clock, advanced, _⟩ := (own.clock.advance_fits units base.clock.frequency).exists_ok
      fun fault overflow => overflow.2 ⟨room.1, above⟩
    refine ⟨clock.value, later.modifyThread id fun thread => { thread with clock }, ?_⟩
    simp only [Scheduler.step, if_neg reference, clock_of_found atCpu, clock_of_found found, advanced, bind, Except.bind]
    rfl

/-- Steps of which none overflows are made. -/
theorem stepAll_exists (indexed : scheduler.Indexed) (known : ∀ step ∈ steps, step.1.index < scheduler.threads.size)
    (fits : scheduler.Fits steps) : ∃ last, stepAll steps scheduler.reset = .ok last := by
  induction steps using List.reverseRecOn with
  | nil => exact ⟨_, rfl⟩
  | append_singleton steps step ih =>
    obtain ⟨middle, earlier⟩ := ih (fun step member => known step (by simp [member])) fits.before
    obtain ⟨clock, next, stepped⟩ : ∃ clock next, middle.step step.1 step.2 = .ok (clock, next) :=
      (Counted.of_steps indexed earlier).step_exists indexed (known step (by simp)) fits
    refine ⟨next, ?_⟩
    rw [stepAll_append, earlier]
    simp only [bind, Except.bind, stepAll, stepped]

private theorem same_thread {first second : Thread} (id : first.id = second.id)
    (frequency : first.clock.frequency = second.clock.frequency)
    (value : first.clock.value.toInt = second.clock.value.toInt) (state : first.state = second.state) : first = second := by
  obtain ⟨_, ⟨_, _⟩, _⟩ := first
  obtain ⟨_, ⟨_, _⟩, _⟩ := second
  cases id
  cases frequency
  cases Int64.toInt_inj.mp value
  cases state
  rfl

/-- The sums of the units determine the whole scheduler. -/
theorem Counted.unique (indexed : scheduler.Indexed) (counted : scheduler.Counted steps last)
    (other : scheduler.Counted reordered later) (same : reordered.Perm steps) : later = last := by
  have differences : ∀ id, scheduler.difference reordered id = scheduler.difference steps id := by
    intro id
    simp only [difference, unitsStepped_perm _ same]
  have times : ∀ id : ThreadId, id.index < scheduler.threads.size → later.time id = last.time id := by
    intro id inside
    by_cases reference : id = .cpu
    · rw [reference, other.reference, counted.reference]
    · rw [other.dependents id reference inside, counted.dependents id reference inside, differences]
  have shapes := other.shape.trans counted.shape.symm
  have threads : later.threads = last.threads := by
    apply Array.ext (size_of_shape shapes)
    intro position inside placed
    have first := Array.getElem?_eq_getElem inside
    have second := Array.getElem?_eq_getElem placed
    have ordered := indexed.of_shape counted.shape
    have named := ordered position _ second
    have shape := congrArg (·[position]?) shapes
    simp only [Scheduler.shape, List.getElem?_map, Array.getElem?_toList, first, second, Option.map_some,
      Option.some.injEq, Prod.mk.injEq] at shape
    have found : last.thread? last.threads[position].id = some last.threads[position] := by
      rw [thread?, named, second]
    have again : later.thread? last.threads[position].id = some later.threads[position] := by
      rw [thread?, named, first]
    have time := times last.threads[position].id (by rw [named, ← size_of_shape counted.shape]; exact placed)
    have state := (other.state last.threads[position].id).trans (counted.state _).symm
    rw [time_eq found, time_eq again] at time
    rw [state?_eq found, state?_eq again, Option.some.injEq] at state
    exact same_thread shape.1 shape.2 time state
  rw [counted.threads, other.threads, threads]

/-- A clock compares two instants: where the units of the thread end and where those of the reference do. -/
theorem Counted.ahead_iff {thread : Thread} (counted : scheduler.Counted steps later) (dependent : id ≠ .cpu)
    (found : later.thread? id = some thread) (positive : 0 < scheduler.rate id) (base : 0 < scheduler.rate .cpu) :
    thread.clock.ahead = true ↔
      (unitsStepped .cpu steps : ℚ) / scheduler.rate .cpu ≤ (unitsStepped id steps : ℚ) / scheduler.rate id := by
  have exact := counted.dependents id dependent (size_of_shape counted.shape ▸ lt_of_found found)
  rw [time_eq found] at exact
  rw [Clock.ahead_iff, exact, difference, Int.sub_nonneg, div_le_div_iff₀ (by exact_mod_cast base) (by exact_mod_cast positive)]
  exact_mod_cast Iff.rfl

theorem Counted.aheadBy_eq {thread : Thread} (counted : scheduler.Counted steps later) (dependent : id ≠ .cpu)
    (found : later.thread? id = some thread) (positive : 0 < scheduler.rate id) {cycles reference : UInt32}
    (base : reference.toNat = scheduler.rate .cpu) (running : 0 < reference.toNat)
    (fits : cycles.toNat * reference.toNat < 0x8000000000000000) :
    ∃ beyond, thread.clock.aheadBy cycles reference = .ok beyond ∧
      (beyond = true ↔ (unitsStepped .cpu steps : ℚ) / scheduler.rate .cpu <
        ((unitsStepped id steps : ℚ) - cycles.toNat) / scheduler.rate id) := by
  have exact := counted.dependents id dependent (size_of_shape counted.shape ▸ lt_of_found found)
  rw [time_eq found] at exact
  obtain ⟨beyond, returned, iff⟩ := (thread.clock.aheadBy_fits cycles reference).exists_ok fun _ overflow => overflow.2 fits
  refine ⟨beyond, returned, ?_⟩
  rw [base] at running iff
  rw [iff, exact, difference, div_lt_div_iff₀ (by exact_mod_cast running) (by exact_mod_cast positive), sub_mul,
    lt_sub_iff_add_lt, lt_sub_iff_add_lt, add_comm]
  exact_mod_cast Iff.rfl

theorem Fits.of_few (few : ∀ domain ∈ scheduler.shape,
      (steps.map fun step => step.2.toNat).sum * domain.2.toNat < 0x8000000000000000) : scheduler.Fits steps := by
  have bound : ∀ units id, units ≤ (steps.map fun step => step.2.toNat).sum →
      units * scheduler.rate id < 0x8000000000000000 := by
    intro units id small
    apply Nat.lt_of_le_of_lt (Nat.mul_le_mul_right _ small)
    cases found : scheduler.thread? id with
    | none => simp [rate, found]
    | some thread =>
      rw [rate_eq found]
      exact few (thread.id, thread.clock.frequency)
        (List.mem_map.mpr ⟨thread, Array.mem_toList_iff.mpr (Array.mem_of_getElem? found), rfl⟩)
  have within : ∀ earlier step, earlier ++ [step] <+: steps → step.2.toNat ≤ (steps.map fun step => step.2.toNat).sum ∧
      ∀ id, unitsStepped id (earlier ++ [step]) ≤ (steps.map fun step => step.2.toNat).sum := by
    intro earlier step shorter
    obtain ⟨rest, rfl⟩ := shorter
    constructor
    · simp only [List.map_append, List.map_cons, List.map_nil, List.sum_append, List.sum_cons, List.sum_nil]
      omega
    · intro id
      have fewer := unitsStepped_le id (earlier ++ [step])
      rw [List.map_append, List.sum_append]
      omega
  -- A difference is no larger than what one of its two sides stepped.
  constructor
  · intro earlier id units shorter _
    obtain ⟨single, sums⟩ := within earlier _ shorter
    have total := bound _ .cpu (sums id)
    refine ⟨bound _ .cpu single, ?_⟩
    simp only [difference]
    have behind := Int.mul_nonneg (Int.natCast_nonneg (unitsStepped .cpu (earlier ++ [(id, units)])))
      (Int.natCast_nonneg (scheduler.rate id))
    zify at total
    omega
  · intro earlier units shorter id _ _
    obtain ⟨single, sums⟩ := within earlier _ shorter
    have total := bound _ id (sums .cpu)
    refine ⟨bound _ id single, ?_⟩
    simp only [difference]
    have ahead := Int.mul_nonneg (Int.natCast_nonneg (unitsStepped id (earlier ++ [(.cpu, units)])))
      (Int.natCast_nonneg (scheduler.rate .cpu))
    zify at total
    omega

/-- A scheduler whose threads were created with these frequencies. -/
def createAll (frequencies : List UInt32) : Scheduler := frequencies.foldl create empty

theorem Indexed.create (indexed : scheduler.Indexed) (frequency : UInt32) : (scheduler.create frequency).Indexed := by
  simp only [Scheduler.create]
  split
  next id named =>
    intro position thread found
    simp only [Array.getElem?_push] at found
    split at found
    next last =>
      cases found
      exact last ▸ ThreadId.index_of_named named
    next => exact indexed position thread found
  next => exact indexed

theorem createAll_indexed (frequencies : List UInt32) : (createAll frequencies).Indexed := by
  suffices every : ∀ scheduler : Scheduler, scheduler.Indexed → (frequencies.foldl Scheduler.create scheduler).Indexed from
    every empty (by intro position thread found; simp [empty] at found)
  induction frequencies with
  | nil => exact fun _ indexed => indexed
  | cons frequency frequencies ih => exact fun scheduler indexed => ih _ (indexed.create frequency)

/-- Clocks are exact: whatever steps the threads make after a reset, in whatever order, each clock ends as
the difference of the units stepped, so it orders the two instants like the fractions of a second that they
are, and the same steps in any other order end in the same scheduler. -/
theorem clocks_exact (indexed : scheduler.Indexed) (known : ∀ step ∈ steps, step.1.index < scheduler.threads.size)
    (fits : scheduler.Fits steps) :
    ∃ last, stepAll steps scheduler.reset = .ok last ∧
      (∀ id : ThreadId, id.index < scheduler.threads.size → ∃ thread, last.thread? id = some thread ∧
        if id = .cpu then thread.clock.value = 0
        else
          thread.clock.value.toInt = unitsStepped id steps * scheduler.rate .cpu - unitsStepped .cpu steps * scheduler.rate id ∧
          (0 < scheduler.rate id → 0 < scheduler.rate .cpu →
            (thread.clock.ahead = true ↔
              (unitsStepped .cpu steps : ℚ) / scheduler.rate .cpu ≤ (unitsStepped id steps : ℚ) / scheduler.rate id) ∧
            ∀ cycles reference : UInt32, reference.toNat = scheduler.rate .cpu →
              cycles.toNat * reference.toNat < 0x8000000000000000 →
              ∃ beyond, thread.clock.aheadBy cycles reference = .ok beyond ∧
                (beyond = true ↔ (unitsStepped .cpu steps : ℚ) / scheduler.rate .cpu <
                  ((unitsStepped id steps : ℚ) - cycles.toNat) / scheduler.rate id))) ∧
      ∀ reordered result, reordered.Perm steps → stepAll reordered scheduler.reset = .ok result → result = last := by
  obtain ⟨last, stepped⟩ := stepAll_exists indexed known fits
  have counted := Counted.of_steps indexed stepped
  refine ⟨last, stepped, ?_, fun reordered result same returned =>
    counted.unique indexed (Counted.of_steps indexed returned) same⟩
  intro id inside
  obtain ⟨thread, found⟩ := found_of_lt (size_of_shape counted.shape ▸ inside : id.index < last.threads.size)
  refine ⟨thread, found, ?_⟩
  split
  next reference =>
    subst id
    have level := counted.reference
    rw [time_eq found] at level
    exact Int64.toInt_inj.mp level
  next dependent =>
    have exact := counted.dependents id dependent inside
    rw [time_eq found] at exact
    refine ⟨exact, fun positive base => ⟨counted.ahead_iff dependent found positive base, ?_⟩⟩
    intro cycles reference frequency fits
    exact counted.aheadBy_eq dependent found positive frequency (frequency ▸ base) fits

/-- Steps of three domains, at 3, 2 and 5 units a second, as they interleave. -/
def interleaved : List (ThreadId × UInt32) := [(.smp, 5), (.cpu, 2), (.ppu, 4), (.smp, 1), (.cpu, 1)]

/-- The same steps in another order. -/
def rearranged : List (ThreadId × UInt32) := [(.cpu, 1), (.cpu, 2), (.smp, 1), (.smp, 5), (.ppu, 4)]

theorem clocks_exact_interleaved :
    ∃ last, stepAll interleaved (createAll [3, 2, 5]).reset = .ok last ∧
      last.time .smp = 12 ∧ last.time .ppu = -3 ∧ stepAll rearranged (createAll [3, 2, 5]).reset = .ok last := by
  have indexed := createAll_indexed [3, 2, 5]
  have known : ∀ step ∈ interleaved, step.1.index < (createAll [3, 2, 5]).threads.size := by decide
  have fits : (createAll [3, 2, 5]).Fits interleaved := .of_few (by decide)
  obtain ⟨last, stepped, clocks, orders⟩ := clocks_exact indexed known fits
  obtain ⟨audio, heard, exact, _⟩ := clocks .smp (by decide)
  obtain ⟨picture, seen, drawn, _⟩ := clocks .ppu (by decide)
  have known : ∀ step ∈ rearranged, step.1.index < (createAll [3, 2, 5]).threads.size := by decide
  have fits : (createAll [3, 2, 5]).Fits rearranged := .of_few (by decide)
  obtain ⟨other, again⟩ := stepAll_exists indexed known fits
  have same := orders _ other (by decide) again
  exact ⟨last, stepped, (time_eq heard).trans exact, (time_eq seen).trans drawn, same ▸ again⟩

end Scheduler
end MultiClock
