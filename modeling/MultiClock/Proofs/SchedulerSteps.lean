import MultiClock.Proofs.SchedulerCalls

/-! A step of a chip moves its own clock forward. A step of the reference moves all others back by
the same units of their own domains, so that it can stay at zero itself. -/

namespace MultiClock

theorem Array.mapM_meets {permitted : Fault → Prop} {post : α → β → Prop} (items : Array α)
    {visit : α → Except Fault β} (each : ∀ item ∈ items, Meets permitted (post item) (visit item)) :
    Meets permitted (fun results : Array β => results.size = items.size ∧
        ∀ (position : Nat) item, items[position]? = some item →
          ∃ result, results[position]? = some result ∧ post item result) (items.mapM visit) := by
  obtain ⟨items⟩ := items
  -- An array is traversed as its list, which is what the induction is on.
  have lists : ∀ list : List α, (∀ item ∈ list, Meets permitted (post item) (visit item)) →
      Meets permitted (fun results : List β => results.length = list.length ∧
        ∀ (position : Nat) item, list[position]? = some item →
          ∃ result, results[position]? = some result ∧ post item result) (list.mapM visit) := by
    intro list
    induction list with
    | nil => exact fun _ => ⟨rfl, by simp⟩
    | cons first rest ih =>
      intro each
      rw [List.mapM_cons]
      apply Meets.bind (each first (by simp))
      intro result holds
      apply Meets.bind (ih fun item member => each item (by simp [member]))
      rintro results ⟨size, found⟩
      refine ⟨by simp [size], ?_⟩
      rintro (_ | position) item placed
      · simp only [List.getElem?_cons_zero, Option.some.injEq] at placed
        subst item
        exact ⟨result, rfl, holds⟩
      · exact found position item placed
  rw [Array.mapM_eq_mapM_toList]
  have met := lists items (by simpa using each)
  cases done : items.mapM visit with
  | ok results =>
    obtain ⟨size, found⟩ := met.of_ok done
    exact ⟨by simpa using size, by simpa using found⟩
  | error fault =>
    rw [done] at met
    exact met

namespace Scheduler

/-- The frequency of a thread's clock domain. -/
def rate (scheduler : Scheduler) (id : ThreadId) : Nat :=
  ((scheduler.thread? id).map fun thread => thread.clock.frequency.toNat).getD 0

theorem rate_eq {scheduler : Scheduler} {id : ThreadId} {thread : Thread}
    (found : scheduler.thread? id = some thread) : scheduler.rate id = thread.clock.frequency.toNat := by
  simp [rate, found]

/-- What a step changes: clocks, and nothing else. -/
structure Stepped (scheduler : Scheduler) (id : ThreadId) (units : Nat) (later : Scheduler) : Prop where
  threads : later = { scheduler with threads := later.threads }
  shape : later.shape = scheduler.shape
  state : ∀ other, later.state? other = scheduler.state? other
  own : id ≠ .cpu → later.time id = scheduler.time id + (units * scheduler.rate .cpu : Nat)
  others : id ≠ .cpu → ∀ other, other ≠ id → later.thread? other = scheduler.thread? other
  reference : id = .cpu → later.time .cpu = scheduler.time .cpu
  dependents : id = .cpu → ∀ other, other ≠ .cpu →
    later.time other = scheduler.time other - (units * scheduler.rate other : Nat)

private theorem stepped_dependent {scheduler : Scheduler} {id : ThreadId} {units : Nat} {thread : Thread} {clock : Clock}
    (dependent : id ≠ .cpu) (found : scheduler.thread? id = some thread)
    (same : clock.frequency = thread.clock.frequency)
    (moved : clock.value.toInt = thread.clock.value.toInt + (units * scheduler.rate .cpu : Nat)) :
    scheduler.Stepped id units (scheduler.modifyThread id fun thread => { thread with clock }) := by
  have placed : ∀ other, (scheduler.modifyThread id fun thread => { thread with clock }).thread? other =
      if id = other then (scheduler.thread? other).map fun thread => { thread with clock }
      else scheduler.thread? other := fun other => thread?_modifyThread _ _ _ _
  refine ⟨rfl, ?_, ?_, ?_, ?_, fun impossible => absurd impossible dependent,
    fun impossible => absurd impossible dependent⟩
  · apply List.ext_getElem?
    intro position
    simp only [Scheduler.shape, modifyThread, List.getElem?_map, Array.getElem?_toList, Array.getElem?_modify]
    split
    next at_id =>
      rw [← at_id, show scheduler.threads[id.index]? = some thread from found]
      simp [same]
    next => rfl
  · intro other
    rw [state?, placed, state?]
    split
    next => cases scheduler.thread? other <;> rfl
    next => rfl
  · intro _
    simp [time, placed, found, moved]
  · intro _ other different
    rw [placed, if_neg (Ne.symm different)]

theorem rewindDependents_meets (units : UInt32) (threads : Array Thread) :
    Meets (Overflow (∀ thread ∈ threads, thread.clock.Calm)) (fun results : Array Thread => results.size = threads.size ∧
        ∀ (position : Nat) (thread : Thread), threads[position]? = some thread →
          ∃ result : Thread, results[position]? = some result ∧ result.id = thread.id ∧ result.state = thread.state ∧
            result.clock.frequency = thread.clock.frequency ∧
            result.clock.value.toInt = thread.clock.value.toInt -
              (if thread.id = .cpu then 0 else units.toNat * thread.clock.frequency.toNat : Nat))
      (rewindDependents units threads) := by
  apply Array.mapM_meets
  intro thread member
  split
  next => exact ⟨rfl, rfl, rfl, by simp⟩
  next dependent =>
    apply Meets.bind ((thread.clock.rewind_meets units).permit fun _ overflow =>
      ⟨overflow.1, fun calm => overflow.2 (calm thread member)⟩)
    rintro clock ⟨frequency, moved⟩
    exact ⟨rfl, rfl, frequency, by simpa [dependent] using moved⟩

private theorem stepped_reference {scheduler : Scheduler} {units : UInt32} {threads : Array Thread}
    (indexed : scheduler.Indexed) (rewound : rewindDependents units scheduler.threads = .ok threads) :
    scheduler.Stepped .cpu units.toNat { scheduler with threads } := by
  obtain ⟨size, each⟩ := (rewindDependents_meets units scheduler.threads).of_ok rewound
  let later : Scheduler := { scheduler with threads }
  have missing : ∀ position : Nat, scheduler.threads[position]? = none → threads[position]? = none := by
    intro position absent
    simpa [size] using absent
  refine ⟨rfl, ?_, ?_, fun impossible => absurd rfl impossible, fun impossible => absurd rfl impossible, ?_, ?_⟩
  · apply List.ext_getElem?
    intro position
    simp only [Scheduler.shape, List.getElem?_map, Array.getElem?_toList]
    cases found : scheduler.threads[position]? with
    | none => simp [missing position found]
    | some thread =>
      obtain ⟨result, placed, id, _, frequency, _⟩ := each position thread found
      simp [placed, id, frequency]
  · intro other
    cases found : scheduler.thread? other with
    | none => simp [state?, found, show later.thread? other = none from missing _ found, later]
    | some thread =>
      obtain ⟨result, placed, _, state, _, _⟩ := each _ thread found
      rw [state?_eq (show later.thread? other = some result from placed), state?_eq found, state]
  · intro _
    cases found : scheduler.thread? .cpu with
    | none => simp [time, found, show later.thread? .cpu = none from missing _ found, later]
    | some thread =>
      obtain ⟨result, placed, _, _, _, moved⟩ := each _ thread found
      rw [time_eq (show later.thread? .cpu = some result from placed), time_eq found, moved,
        if_pos (indexed.id_eq found)]
      simp
  · intro _ other dependent
    cases found : scheduler.thread? other with
    | none => simp [time, rate, found, show later.thread? other = none from missing _ found, later]
    | some thread =>
      obtain ⟨result, placed, _, _, _, moved⟩ := each _ thread found
      have named := indexed.id_eq found
      rw [time_eq (show later.thread? other = some result from placed), time_eq found, rate_eq found, moved,
        if_neg (by rw [named]; exact dependent)]

theorem step_eq_ok {scheduler later : Scheduler} {id : ThreadId} {units : UInt32} {clock : Int64}
    (indexed : scheduler.Indexed) (stepped : scheduler.step id units = .ok (clock, later)) :
    scheduler.Stepped id units.toNat later := by
  by_cases reference : id = .cpu
  · subst id
    rw [step, if_pos rfl] at stepped
    obtain ⟨threads, rewound, ended⟩ := Except.bind_eq_ok stepped
    cases ended
    exact stepped_reference indexed rewound
  · rw [step, if_neg reference] at stepped
    obtain ⟨first, base, stepped⟩ := Except.bind_eq_ok stepped
    obtain ⟨own, mine, stepped⟩ := Except.bind_eq_ok stepped
    obtain ⟨moved, advanced, ended⟩ := Except.bind_eq_ok stepped
    cases ended
    obtain ⟨_, atCpu, rfl⟩ := clock_eq_ok base
    obtain ⟨_, found, rfl⟩ := clock_eq_ok mine
    obtain ⟨frequency, moved⟩ := (Clock.advance_meets _ _ _).of_ok advanced
    exact stepped_dependent reference found frequency (by rw [rate_eq atCpu]; exact moved)

end Scheduler
end MultiClock
