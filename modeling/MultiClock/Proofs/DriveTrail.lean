import MultiClock.Proofs.SliceContract
import MultiClock.Save.Drive

/-! The trail of one drive. As long as no chip was resumed, the driven thread is the active one and,
unless it is the reference, no other thread has changed. The first resume raises the disturbance flag,
and the flag stays up until some thread stops at its point and tells the host. -/

namespace MultiClock

/-- What a chip reports holds no transfer of control. The scheduler itself reports those. -/
def Silent (notices : List Notice) : Prop := ∀ source target, .activity (.resume source target) ∉ notices

/-- Chips of any kind whose slices keep to the rules of a scheduler. Whether the machine is quiescent
after a drive is checked by the driver alone. -/
def ChipSet.Disciplined (σ : Type) [ChipSet σ] : Prop :=
  ∀ (id : ThreadId) (chips : σ) (scheduler : Scheduler),
    Meets (· ≠ .notQuiescent) (fun result => scheduler.Calls id result.2.1 ∧ Silent result.2.2)
      (ChipSet.slice id chips scheduler)

/-- A host for which it is known how many resumes and how many frames it has heard of. -/
structure Hearing [Host ω] (heard : Nat → Nat → ω → Prop) (onFrame : σ → StateM ω σ) : Prop where
  resume : ∀ {resumes frames : Nat} {host : ω} (source target : ThreadId), heard resumes frames host →
    heard (resumes + 1) frames (Host.notice (.activity (.resume source target)) host)
  other : ∀ {resumes frames : Nat} {host : ω} {notice : Notice},
    (∀ source target, notice ≠ .activity (.resume source target)) → heard resumes frames host →
      heard resumes frames (Host.notice notice host)
  frame : ∀ {resumes frames : Nat} {host : ω} (chips : σ), heard resumes frames host →
    heard resumes (frames + 1) (onFrame chips host).2

/-- Nothing needs to be known of a host. -/
theorem Hearing.anything [Host ω] (onFrame : σ → StateM ω σ) : Hearing (fun _ _ _ => True) onFrame :=
  ⟨fun _ _ _ => trivial, fun _ _ => trivial, fun _ _ => trivial⟩

theorem Hearing.others [Host ω] {heard : Nat → Nat → ω → Prop} {onFrame : σ → StateM ω σ}
    (hearing : Hearing heard onFrame) {resumes frames : Nat} {host : ω} (notices : List Notice)
    (silent : Silent notices) (known : heard resumes frames host) :
    heard resumes frames (notices.foldr Host.notice host) := by
  apply List.foldrRecOn notices Host.notice known
  intro host known notice member
  refine hearing.other ?_ known
  rintro source target rfl
  exact silent source target member

namespace Scheduler

/-- The thread exists and is settled. -/
def Rests (scheduler : Scheduler) (id : ThreadId) : Prop :=
  ∃ thread, scheduler.thread? id = some thread ∧ thread.settled = true

/-- No other thread differs from the start, if the driven one is a dependent. -/
def Alone (driven : ThreadId) (start now : Scheduler) : Prop :=
  driven ≠ .cpu → ∀ other, other ≠ driven → now.thread? other = start.thread? other

/-- What every state of a drive shares with its start. -/
structure Driving (start now : Scheduler) : Prop where
  indexed : start.Indexed
  mode : now.mode = .synchronize
  shape : now.shape = start.shape

theorem Driving.here {start now : Scheduler} (driving : Driving start now) : now.Indexed :=
  driving.indexed.of_shape driving.shape

theorem Driving.kept {start now later : Scheduler} {id : ThreadId} (driving : Driving start now)
    (kept : Kept id now later) : Driving start later :=
  ⟨driving.indexed, kept.mode.trans driving.mode, kept.shape.trans driving.shape⟩

theorem Driving.transferTo {start now : Scheduler} (driving : Driving start now) (target : ThreadId) :
    Driving start (now.transferTo target) := by
  refine ⟨driving.indexed, driving.mode, .trans ?_ driving.shape⟩
  apply shape_modifyThread
  intro thread
  simp only [Thread.release]
  split <;> exact ⟨rfl, rfl⟩

/-- Where a drive stands: either nothing has disturbed it, or a resume did and the flag is up. -/
inductive Trail (driven : ThreadId) (start : Scheduler) (before : Nat) (now : Scheduler) (resumes : Nat) : Prop
  | undisturbed (clear : now.desynchronized = false) (active : now.active = driven) (none : resumes = before)
      (alone : Alone driven start now)
  | disturbed (raised : now.desynchronized = true) (more : before < resumes)

/-- How control came back to the host: for a frame, with the driven thread at its point, or with some
thread at its point after a disturbance. -/
inductive Return (driven : ThreadId) (start : Scheduler) (before : Nat) (now : Scheduler) (resumes : Nat) : Prop
  | frame (event : now.event = .frame) (trail : Trail driven start before now resumes)
  | point (event : now.event = .synchronized) (active : now.active = driven) (clear : now.desynchronized = false)
      (none : resumes = before) (rests : now.Rests driven) (alone : Alone driven start now)
  | disturbed (event : now.event = .desynchronized) (clear : now.desynchronized = false) (more : before < resumes)

theorem Alone.trans {driven : ThreadId} {start now later : Scheduler} (alone : Alone driven start now)
    (kept : driven ≠ .cpu → ∀ other, other ≠ driven → later.thread? other = now.thread? other) :
    Alone driven start later :=
  fun dependent other different => (kept dependent other different).trans (alone dependent other different)

theorem Alone.release {driven : ThreadId} {start now : Scheduler} (alone : Alone driven start now) :
    Alone driven start (now.transferTo driven) := by
  apply alone.trans
  intro _ other different
  exact (thread?_modifyThread now driven other Thread.release).trans (if_neg (Ne.symm different))

section trail
variable {driven : ThreadId} {start now later : Scheduler} {before resumes : Nat} (trail : Trail driven start before now resumes)
include trail

/-- A slice without a resume disturbs nothing. -/
theorem Trail.quiet (same : later.desynchronized = now.desynchronized) (active : later.active = now.active)
    (others : now.active ≠ .cpu → ∀ other, other ≠ now.active → later.thread? other = now.thread? other) :
    Trail driven start before later resumes := by
  cases trail with
  | undisturbed clear here none alone => exact .undisturbed (same.trans clear) (active.trans here) none (alone.trans (here ▸ others))
  | disturbed raised more => exact .disturbed (same.trans raised) more

theorem Trail.resumed (raised : later.desynchronized = true) : Trail driven start before later (resumes + 1) := by
  refine .disturbed raised ?_
  cases trail with
  | undisturbed _ _ none => omega
  | disturbed _ more => omega

end trail

section slices
variable [ChipSet σ] [Host ω] {heard : Nat → Nat → ω → Prop} {onFrame : σ → StateM ω σ} {driven : ThreadId}
  {start : Scheduler} {before frames : Nat}

/-- The host has heard of the frames so far and control is with it again. -/
def Back (heard : Nat → Nat → ω → Prop) (driven : ThreadId) (start : Scheduler) (before frames : Nat)
    (now : Scheduler) (host : ω) : Prop :=
  ∃ resumes, heard resumes frames host ∧ Driving start now ∧ Return driven start before now resumes

theorem runSlices_returns (disciplined : ChipSet.Disciplined σ) (hearing : Hearing heard onFrame) (budget : Nat)
    {now : Scheduler} {chips : σ} {host : ω} {resumes : Nat} (driving : Driving start now)
    (free : now.transfer = none) (trail : Trail driven start before now resumes)
    (known : heard resumes frames host) :
    (now.runSlices budget chips).Meets (· ≠ .notQuiescent)
      (fun result later => Back heard driven start before frames result.1 later) host := by
  -- The trail is what carries the induction: until some chip is resumed, the driven one keeps control.
  induction budget generalizing now chips host resumes with
  | zero => exact .throw (by simp)
  | succ budget ih =>
    have slice := disciplined now.active chips now
    rw [runSlices]
    cases sliced : ChipSet.slice now.active chips now with
    | error fault =>
      rw [sliced] at slice
      exact .throw slice
    | ok result =>
      obtain ⟨moved, later, notices⟩ := result
      obtain ⟨calls, silent⟩ : now.Calls now.active later ∧ Silent notices := slice.of_ok sliced
      have kept := calls.kept driving.here
      have ending := calls.ending driving.here free
      have along := driving.kept kept
      have known := hearing.others notices silent known
      simp only [Run.ofExcept_ok, pure_bind]
      apply Run.Meets.after_reportAll
      cases ending with
      | stays free same =>
        simp only [free]
        exact ih along free (trail.quiet same kept.active kept.others) known
      | resumes target asked disturbed =>
        have raised : later.desynchronized = true := by simp [disturbed, synchronizing, driving.mode]
        simp only [asked]
        apply Run.Meets.after_report
        exact ih (along.transferTo target) rfl (trail.resumed raised) (hearing.resume _ _ known)
      | frames asked same =>
        simp only [asked]
        refine .after_report (.pure ?_)
        exact ⟨resumes, hearing.other (by simp) known, ⟨along.indexed, along.mode, along.shape⟩,
          .frame rfl (trail.quiet same kept.active kept.others)⟩
      | stops thread asked clear found settled =>
        simp only [asked]
        refine .after_report (.pure ?_)
        refine ⟨resumes, hearing.other (by simp) known, ⟨along.indexed, along.mode, along.shape⟩, ?_⟩
        cases trail with
        | undisturbed down active none alone =>
          have alone : Alone driven start later := alone.trans (active ▸ kept.others)
          refine .point (by simp [down]) (kept.active.trans active) clear none ⟨thread, ?_, settled⟩ alone
          rw [← active]
          exact found
        | disturbed raised more => exact .disturbed (by simp [raised]) clear more

/-- Control is given to the active thread, which is the driven one unless the drive is disturbed. -/
theorem Trail.enter {now : Scheduler} {resumes : Nat} (trail : Trail driven start before now resumes) :
    Trail driven start before { now.transferTo now.active with entered := true } resumes := by
  cases trail with
  | undisturbed clear active none alone =>
    refine .undisturbed clear active none ?_
    rw [active]
    exact alone.release
  | disturbed raised more => exact .disturbed raised more

theorem enter_returns (disciplined : ChipSet.Disciplined σ) (hearing : Hearing heard onFrame) (budget : Nat)
    {now : Scheduler} {chips : σ} {host : ω} {resumes : Nat} (driving : Driving start now)
    (trail : Trail driven start before now resumes) (known : heard resumes frames host) :
    (now.enter budget chips).Meets (· ≠ .notQuiescent)
      (fun result later => Back heard driven start before frames result.1 later) host := by
  rw [enter]
  split
  next => exact .throw (by simp)
  next =>
    split
    next => exact .throw (by simp)
    next =>
      have inside := driving.transferTo now.active
      exact runSlices_returns disciplined hearing budget ⟨inside.indexed, inside.mode, inside.shape⟩ rfl trail.enter known

end slices
end Scheduler
end MultiClock
