import MultiClock.Proofs.DriveRules

/-! What the driver may conclude from a drive. An undisturbed drive leaves its thread settled and, for
a dependent, no other thread changed; every disturbed one is paid for by a resume. -/

namespace MultiClock.Save

variable [ChipSet σ] [Host ω] {heard : Nat → Nat → ω → Prop} {onFrame : σ → StateM ω σ} {budget : Nat}
  {origin : Scheduler}

/-- The books of a driver between two drives: every frame and every disturbance that it counted, the
host has heard of. -/
structure Account (heard : Nat → Nat → ω → Prop) (origin : Scheduler) (driving : Drive σ) (host : ω) : Prop where
  along : origin.Driving driving.scheduler
  clear : driving.scheduler.desynchronized = false
  counted : ∃ resumes, heard resumes driving.report.frames.toNat host ∧ driving.report.desyncs.toNat ≤ resumes

/-- What the answer of a drive means. -/
inductive Verdict (thread : ThreadId) (before after : Drive σ) : Bool → Prop
  | undisturbed (desyncs : after.report.desyncs = before.report.desyncs) (rests : after.scheduler.Rests thread)
      (alone : Scheduler.Alone thread before.scheduler after.scheduler) : Verdict thread before after true
  | disturbed (desyncs : after.report.desyncs.toNat = before.report.desyncs.toNat + 1) :
      Verdict thread before after false

/-- The account after a drive, and the meaning of its answer. -/
def Judged (heard : Nat → Nat → ω → Prop) (origin : Scheduler) (thread : ThreadId) (before : Drive σ)
    (result : Bool × Drive σ) (host : ω) : Prop :=
  Account heard origin result.2 host ∧ result.2.report.passes = before.report.passes ∧
    Verdict thread before result.2 result.1

theorem enterUntilPoint_judges (disciplined : ChipSet.Disciplined σ) (hearing : Hearing heard onFrame)
    (thread : ThreadId) (before : Drive σ) {resumed : Nat} (origins : origin.Driving before.scheduler)
    (covered : before.report.desyncs.toNat ≤ resumed) (rounds : Nat) {driving : Drive σ} {host : ω} {resumes : Nat}
    (passes : driving.report.passes = before.report.passes) (desyncs : driving.report.desyncs = before.report.desyncs)
    (along : before.scheduler.Driving driving.scheduler)
    (trail : Scheduler.Trail thread before.scheduler resumed driving.scheduler resumes)
    (known : heard resumes driving.report.frames.toNat host) :
    (enterUntilPoint onFrame budget thread rounds driving).Meets (· ≠ .notQuiescent)
      (Judged heard origin thread before) host := by
  -- Only a frame leads to another entry, and a frame changes neither the trail nor the count of disturbances.
  induction rounds generalizing driving host resumes with
  | zero => exact .throw (by simp)
  | succ rounds ih =>
    obtain ⟨scheduler, chips, report⟩ := driving
    simp only [enterUntilPoint]
    refine .bind (Scheduler.enter_returns disciplined hearing budget along trail known) ?_
    rintro ⟨now, moved⟩ later ⟨resumes, known, along, returned⟩
    have origins : origin.Driving now := ⟨origins.indexed, along.mode, along.shape.trans origins.shape⟩
    simp only at known along returned ⊢
    cases returned with
    | frame event trail =>
      rw [if_pos event]
      refine .bind (count_meets (by simp) report.frames later) ?_
      rintro frames _ ⟨counted, rfl⟩
      have framed : Run.Meets (· ≠ .notQuiescent) (fun _ host => heard resumes (report.frames.toNat + 1) host)
        (onFrame moved : Run ω σ) later := .lift (hearing.frame moved known)
      refine framed.bind ?_
      intro chips later known
      exact ih passes desyncs along trail (by rwa [counted])
    | point event active clear none rests alone =>
      have unframed : now.event ≠ .frame := by simp [event]
      rw [if_neg unframed, if_pos ⟨event, active⟩]
      refine .pure ⟨⟨origins, clear, resumes, known, ?_⟩, passes, .undisturbed desyncs rests alone⟩
      rw [none, desyncs]
      exact covered
    | disturbed event clear more =>
      have unframed : now.event ≠ .frame := by simp [event]
      have away : ¬ (now.event = .synchronized ∧ now.active = thread) := by simp [event]
      rw [if_neg unframed, if_neg away]
      refine .bind (count_meets (by simp) report.desyncs later) ?_
      rintro count _ ⟨counted, rfl⟩
      rw [desyncs] at counted
      have paid : count.toNat ≤ resumes := by omega
      exact .pure ⟨⟨origins, clear, resumes, known, paid⟩, passes, .disturbed counted⟩

theorem drive_judges (disciplined : ChipSet.Disciplined σ) (hearing : Hearing heard onFrame) (thread : ThreadId)
    {driving : Drive σ} {host : ω} (account : Account heard origin driving host) :
    (drive onFrame budget thread driving).Meets (· ≠ .notQuiescent) (Judged heard origin thread driving) host := by
  obtain ⟨scheduler, chips, report⟩ := driving
  obtain ⟨along, clear, resumes, known, covered⟩ := account
  simp only [drive, Scheduler.setActive]
  split
  next => exact .throw (by simp)
  next =>
    split
    next => exact .throw (by simp)
    next =>
      let started : Scheduler := { scheduler with active := thread }
      have begun : origin.Driving started := ⟨along.indexed, along.mode, along.shape⟩
      refine (enterUntilPoint_judges disciplined hearing thread ⟨started, chips, report⟩ begun covered budget rfl rfl
        ⟨begun.here, begun.mode, rfl⟩ (.undisturbed clear rfl rfl fun _ _ _ => rfl) known).mono ?_
      rintro ⟨answer, later⟩ host ⟨account, passes, verdict⟩
      refine ⟨account, passes, ?_⟩
      cases verdict with
      | undisturbed desyncs rests alone => exact .undisturbed desyncs rests alone
      | disturbed desyncs => exact .disturbed desyncs

end MultiClock.Save
