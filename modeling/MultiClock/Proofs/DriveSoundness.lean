import MultiClock.Proofs.DriveVerdict

/-! The driver is sound for chips of any kind. A strict pass that ends without a disturbance drove
every dependent after the reference last moved, so all of them are still settled when it ends; the fast
method looks for itself. Neither counts a disturbance that no resume paid for. -/

namespace MultiClock.Save

/-- The threads that are settled after one more undisturbed drive. The reference may have moved the
clocks of all others. -/
def settledBy (settled : List ThreadId) (driven : ThreadId) : List ThreadId :=
  if driven = .cpu then [.cpu] else driven :: settled

theorem mem_settledBy_foldl {id : ThreadId} {driven : List ThreadId} (dependents : ∀ thread ∈ driven, thread ≠ .cpu)
    (settled : List ThreadId) : id ∈ driven.foldl settledBy settled ↔ id ∈ driven ∨ id ∈ settled := by
  induction driven generalizing settled with
  | nil => simp
  | cons first rest ih =>
    rw [List.foldl_cons, ih fun thread member => dependents thread (List.mem_cons_of_mem _ member)]
    simp only [settledBy, if_neg (dependents first List.mem_cons_self), List.mem_cons]
    constructor
    · rintro (later | now | before)
      · exact .inl (.inr later)
      · exact .inl (.inl now)
      · exact .inr before
    · rintro ((now | later) | before)
      · exact .inr (.inl now)
      · exact .inl later
      · exact .inr (.inr before)

theorem strictOrder_of_shape {first second : Scheduler} (same : second.shape = first.shape) :
    strictOrder second = strictOrder first := by
  have names : ∀ scheduler : Scheduler, scheduler.threads.toList.map Thread.id = scheduler.shape.map Prod.fst := by
    intro scheduler
    simp [Scheduler.shape]
  rw [strictOrder, strictOrder, names, names, same, Scheduler.size_of_shape same]

/-- The strict order settles every thread, if nothing disturbs it. -/
theorem mem_strictOrder {scheduler : Scheduler} (indexed : scheduler.Indexed) {thread : Thread}
    (member : thread ∈ scheduler.threads) : thread.id ∈ (strictOrder scheduler).foldl settledBy [] := by
  have inside := Scheduler.lt_of_found (indexed.found member)
  rw [strictOrder, List.foldl_append, mem_settledBy_foldl (by simp +contextual)]
  by_cases several : 1 < scheduler.threads.size
  · rw [if_pos several]
    by_cases first : thread.id = .cpu ∨ thread.id = .smp
    · right
      rcases first with first | first <;> simp [first, settledBy]
    · left
      rw [not_or] at first
      simp only [List.mem_filter, List.mem_map, Array.mem_toList_iff]
      exact ⟨⟨thread, member, rfl⟩, by simpa using first⟩
  · right
    have first : thread.id = .cpu := ThreadId.index_injective (show thread.id.index = 0 by omega)
    simp [if_neg several, settledBy, first]

theorem countPass_meets {heard : Nat → Nat → ω → Prop} {origin : Scheduler} {driving : Drive σ} {host : ω} (account : Account heard origin driving host) :
    (countPass driving).Meets (· ≠ .notQuiescent)
      (fun later host => Account heard origin later host ∧ later.scheduler = driving.scheduler ∧
        later.report.passes.toNat = driving.report.passes.toNat + 1 ∧ later.report.desyncs = driving.report.desyncs)
      host := by
  refine .bind (count_meets (by simp) driving.report.passes host) ?_
  rintro passes _ ⟨counted, rfl⟩
  exact .pure ⟨⟨account.along, account.clear, account.counted⟩, rfl, counted, rfl⟩

theorem Account.notice [Host ω] {heard : Nat → Nat → ω → Prop} {onFrame : σ → StateM ω σ} {origin : Scheduler}
    {driving : Drive σ} {host : ω} {notice : Notice}
    (account : Account heard origin driving host) (hearing : Hearing heard onFrame)
    (other : ∀ source target, notice ≠ .activity (.resume source target)) :
    Account heard origin driving (Host.notice notice host) := by
  obtain ⟨resumes, known, covered⟩ := account.counted
  exact ⟨account.along, account.clear, resumes, hearing.other other known, covered⟩

variable [ChipSet σ] [Host ω] {heard : Nat → Nat → ω → Prop} {onFrame : σ → StateM ω σ} {budget : Nat}
  {origin : Scheduler}

/-- A pass that nothing disturbed settles its threads one after the other. -/
theorem pass_settles (disciplined : ChipSet.Disciplined σ) (hearing : Hearing heard onFrame) (order : List ThreadId)
    (settled : List ThreadId) {driving : Drive σ} {host : ω} (account : Account heard origin driving host)
    (resting : ∀ id ∈ settled, driving.scheduler.Rests id) :
    (pass onFrame budget order driving).Meets (· ≠ .notQuiescent)
      (fun result host => Account heard origin result.2 host ∧ result.2.report.passes = driving.report.passes ∧
        match result.1 with
        | none => result.2.report.desyncs = driving.report.desyncs ∧
            ∀ id ∈ order.foldl settledBy settled, result.2.scheduler.Rests id
        | some _ => result.2.report.desyncs.toNat = driving.report.desyncs.toNat + 1)
      host := by
  -- Driving a dependent leaves the others where they rest. Driving the reference moves the clocks of all others.
  induction order generalizing driving host settled with
  | nil => exact .pure ⟨account, rfl, rfl, resting⟩
  | cons thread rest ih =>
    rw [pass]
    refine .bind (drive_judges disciplined hearing thread account) ?_
    rintro ⟨answer, later⟩ host ⟨account, passes, verdict⟩
    cases verdict with
    | disturbed desyncs => exact .pure ⟨account, passes, desyncs⟩
    | undisturbed desyncs rests alone =>
      have resting : ∀ id ∈ settledBy settled thread, later.scheduler.Rests id := by
        intro id member
        by_cases same : id = thread
        · exact same ▸ rests
        · by_cases reference : thread = .cpu
          · simp only [settledBy, if_pos reference, List.mem_singleton] at member
            exact absurd (member.trans reference.symm) same
          · simp only [settledBy, if_neg reference, List.mem_cons, same, false_or] at member
            obtain ⟨found, present, settled⟩ := resting id member
            exact ⟨found, (alone reference id same).trans present, settled⟩
      refine (ih _ account resting).mono ?_
      rintro ⟨disturbed, last⟩ host ⟨account, kept, rest⟩
      refine ⟨account, kept.trans passes, ?_⟩
      cases disturbed with
      | none => exact ⟨rest.1.trans desyncs, rest.2⟩
      | some _ => exact rest.trans (by rw [desyncs])

theorem strict_settles (disciplined : ChipSet.Disciplined σ) (hearing : Hearing heard onFrame) (order : List ThreadId)
    (rounds : Nat) {driving : Drive σ} {host : ω} (account : Account heard origin driving host)
    (even : driving.report.passes.toNat = driving.report.desyncs.toNat) :
    (strict onFrame budget order rounds driving).Meets (· ≠ .notQuiescent)
      (fun later host => Account heard origin later host ∧
        later.report.passes.toNat = later.report.desyncs.toNat + 1 ∧
        ∀ id ∈ order.foldl settledBy [], later.scheduler.Rests id)
      host := by
  induction rounds generalizing driving host with
  | zero => exact .throw (by simp)
  | succ rounds ih =>
    rw [strict]
    refine .bind (countPass_meets account) ?_
    rintro counted host ⟨account, _, passes, desyncs⟩
    refine .bind (pass_settles disciplined hearing order [] account (by simp)) ?_
    rintro ⟨disturbed, later⟩ host ⟨account, kept, rest⟩
    cases disturbed with
    | none => exact .pure ⟨account, by rw [kept, rest.1, desyncs, passes, even], rest.2⟩
    | some thread =>
      refine .after_report (ih (account.notice hearing (by simp)) ?_)
      rw [kept, rest, desyncs, passes, even]

theorem account_lasting (disciplined : ChipSet.Disciplined σ) (hearing : Hearing heard onFrame) :
    Lasting (· ≠ .notQuiescent) onFrame budget (Account heard origin) where
  lenient _ := id
  drive thread _ _ account := (drive_judges disciplined hearing thread account).mono fun _ _ => And.left
  passes _ account := ⟨account.along, account.clear, account.counted⟩
  notice other account := account.notice hearing other

/-- What a driver hands back: a machine at a consistent instant and honest counts. -/
structure Delivered (heard : Nat → Nat → ω → Prop) (method : SaveMethod) (driving : Drive σ) (host : ω) : Prop where
  quiescent : driving.scheduler.quiescent = true
  outside : driving.scheduler.entered = false
  mode : driving.scheduler.mode = .run
  active : driving.scheduler.active = .cpu
  clear : driving.scheduler.desynchronized = false
  counted : ∃ resumes, heard resumes driving.report.frames.toNat host ∧ driving.report.desyncs.toNat ≤ resumes
  passes : method = .strict → driving.report.passes.toNat = driving.report.desyncs.toNat + 1

theorem quiescent_of_rests {scheduler : Scheduler} (indexed : scheduler.Indexed)
    (rests : ∀ thread ∈ scheduler.threads, scheduler.Rests thread.id) : scheduler.quiescent = true := by
  refine Array.all_eq_true'.mpr fun thread member => ?_
  obtain ⟨found, present, settled⟩ := rests thread member
  rw [indexed.found member] at present
  cases present
  exact settled

theorem settleAll_settles (disciplined : ChipSet.Disciplined σ) (hearing : Hearing heard onFrame) (method : SaveMethod)
    {driving : Drive σ} {host : ω} (account : Account heard driving.scheduler driving host)
    (even : driving.report.passes.toNat = driving.report.desyncs.toNat) :
    (settleAll onFrame budget method driving).Meets (· ≠ .notQuiescent)
      (fun later host => Account heard driving.scheduler later host ∧ later.scheduler.quiescent = true ∧
        (method = .strict → later.report.passes.toNat = later.report.desyncs.toNat + 1)) host := by
  cases method with
  | fast =>
    refine ((account_lasting disciplined hearing).fast account).mono ?_
    exact fun later host held => ⟨held.1, held.2, by simp⟩
  | strict =>
    refine (strict_settles disciplined hearing (strictOrder driving.scheduler) budget account even).mono ?_
    rintro later host ⟨account, passes, rests⟩
    rw [← strictOrder_of_shape account.along.shape] at rests
    refine ⟨account, quiescent_of_rests account.along.here ?_, fun _ => passes⟩
    exact fun thread member => rests _ (mem_strictOrder account.along.here member)

omit [ChipSet σ] in
theorem handBack_delivers (hearing : Hearing heard onFrame) {method : SaveMethod} {driving : Drive σ} {host : ω}
    (account : Account heard origin driving host) (quiescent : driving.scheduler.quiescent = true)
    (passes : method = .strict → driving.report.passes.toNat = driving.report.desyncs.toNat + 1) :
    (handBack method driving).Meets (· ≠ .notQuiescent) (Delivered heard method) host := by
  obtain ⟨scheduler, chips, report⟩ := driving
  obtain ⟨resumes, known, covered⟩ := account.counted
  simp only at quiescent passes known covered
  simp only [handBack, quiescent, Bool.not_true, Bool.false_eq_true, if_false, Scheduler.setMode]
  split
  next => exact .throw (by simp)
  next outside =>
    simp only [Run.ofExcept_ok, pure_bind, Scheduler.setActive, if_neg outside]
    split
    next => exact .throw (by simp)
    next =>
      simp only [Run.ofExcept_ok, pure_bind]
      refine .after_report (.pure ?_)
      exact ⟨quiescent, Bool.eq_false_iff.mpr outside, rfl, rfl, rfl, ⟨resumes, hearing.other (by simp) known, covered⟩, passes⟩

theorem runToSave_delivers (disciplined : ChipSet.Disciplined σ) (hearing : Hearing heard onFrame) (method : SaveMethod)
    {scheduler : Scheduler} (indexed : scheduler.Indexed) (chips : σ) {host : ω} (known : heard 0 0 host) :
    (runToSave onFrame budget method scheduler chips).Meets (· ≠ .notQuiescent) (Delivered heard method) host := by
  cases outside : scheduler.entered with
  | true =>
    rw [runToSave, Scheduler.setMode, if_pos (by exact outside)]
    exact .throw (by simp)
  | false =>
    rw [runToSave_eq outside]
    have started : Account heard (steered scheduler) (⟨steered scheduler, chips, SaveReport.zero⟩ : Drive σ) host :=
      ⟨⟨indexed, rfl, rfl⟩, rfl, 0, known, Nat.le_refl 0⟩
    refine .bind (settleAll_settles disciplined hearing method started rfl) ?_
    rintro driving host ⟨account, quiescent, passes⟩
    exact handBack_delivers hearing account quiescent passes

end MultiClock.Save
