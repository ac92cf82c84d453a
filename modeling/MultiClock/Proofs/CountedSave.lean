import MultiClock.Proofs.DriveSoundness
import MultiClock.Proofs.SliceFaults

/-! A save in front of a host that counts. Any host can count the resumes and the frames that it hears
of, next to whatever else it does with them. -/

namespace MultiClock.Save

/-- A host, and how many resumes and frames it has heard of. -/
structure Counted (ω : Type) where
  host : ω
  resumes : Nat
  frames : Nat

namespace Counted

def resumesOf : Notice → Nat
  | .activity (.resume _ _) => 1
  | _ => 0

instance [Host ω] : Host (Counted ω) where
  notice notice heard :=
    ⟨Host.notice notice heard.host, heard.resumes + resumesOf notice, heard.frames⟩
  frame picture samples heard := ⟨Host.frame picture samples heard.host, heard.resumes, heard.frames⟩

/-- What is done at a frame, and one more frame. -/
def atFrame (onFrame : σ → StateM ω σ) (chips : σ) : StateM (Counted ω) σ := fun heard =>
  let (chips, host) := onFrame chips heard.host
  (chips, ⟨host, heard.resumes, heard.frames + 1⟩)

theorem hearing [Host ω] (onFrame : σ → StateM ω σ) :
    Hearing (fun resumes frames (heard : Counted ω) => heard.resumes = resumes ∧ heard.frames = frames)
      (atFrame onFrame) where
  resume := by
    rintro _ _ heard source target ⟨rfl, rfl⟩
    exact ⟨rfl, rfl⟩
  other := by
    rintro _ _ heard notice other ⟨rfl, rfl⟩
    refine ⟨?_, rfl⟩
    cases notice with
    | activity activity =>
      cases activity with
      | resume source target => exact absurd rfl (other source target)
      | leave | step => rfl
    | _ => rfl
  frame := by
    rintro _ _ heard chips ⟨rfl, rfl⟩
    exact ⟨rfl, rfl⟩

end Counted

/-- Driving disciplined chips to a save never ends with a thread that is not settled. When it ends
well, the machine is at a consistent instant and in normal execution with the reference active, no more
disturbances are reported than there were resumes, exactly the frames that the host had to handle are
reported, and the strict method made one pass more than there were disturbances. -/
theorem runToSave_sound [ChipSet σ] [Host ω] (disciplined : ChipSet.Disciplined σ) (onFrame : σ → StateM ω σ)
    (budget : Nat) (method : SaveMethod) (scheduler : Scheduler) (indexed : scheduler.Indexed) (chips : σ) (host : ω) :
    (runToSave (Counted.atFrame onFrame) budget method scheduler chips).Meets (· ≠ .notQuiescent)
      (fun driving heard => driving.scheduler.quiescent = true ∧ driving.scheduler.mode = .run ∧
        driving.scheduler.active = .cpu ∧ driving.report.desyncs.toNat ≤ heard.resumes ∧
        driving.report.frames.toNat = heard.frames ∧
        (method = .strict → driving.report.passes.toNat = driving.report.desyncs.toNat + 1))
      ⟨host, 0, 0⟩ := by
  refine (runToSave_delivers disciplined (Counted.hearing onFrame) method indexed chips ⟨rfl, rfl⟩).mono ?_
  rintro driving heard ⟨quiescent, _, mode, active, _, ⟨resumes, ⟨same, frames⟩, covered⟩, passes⟩
  exact ⟨quiescent, mode, active, by omega, frames.symm, passes⟩

/-- Chips that pass control around: each unit of work resumes the next of the listed threads. -/
structure Relay where
  targets : List ThreadId
deriving DecidableEq

instance : ChipSet Relay where
  slice id relay scheduler := do
    let (passes, scheduler) ← scheduler.synchronizePoint id
    if !passes then return (relay, scheduler, [])
    let (_, scheduler) ← scheduler.step id 1
    match relay.targets with
    | [] => return (relay, scheduler, [])
    | target :: rest => return (⟨rest⟩, ← scheduler.resume target, [])

theorem Relay.disciplined : ChipSet.Disciplined Relay := by
  intro id relay scheduler
  refine ((@Scheduler.synchronizePoint_meets True scheduler id).permit fun _ => And.left).bind ?_
  rintro ⟨passes, pointed⟩ point
  cases passes with
  | false => exact .pure ⟨.stop point, by simp [Silent]⟩
  | true =>
    refine ((pointed.step_returns id 1).permit fun _ => And.left).bind ?_
    rintro ⟨clock, stepped⟩ step
    rcases relay with ⟨_ | ⟨target, rest⟩⟩
    · exact .pure ⟨.pass point (.step step (.done _)), by simp [Silent]⟩
    · refine ((@Scheduler.resume_meets True stepped target).permit fun _ => And.left).bind fun resumed resume => ?_
      exact .pure ⟨.pass point (.step step (.resume resume (.done _))), by simp [Silent]⟩

/-- Three threads in every state that a thread can be in, one of them behind the reference. -/
def scattered : Scheduler :=
  { Scheduler.empty with
    threads := #[⟨.cpu, ⟨21477272, 0⟩, .running⟩, ⟨.smp, ⟨24576000, -5000000⟩, .parked⟩, ⟨.ppu, ⟨100, 7⟩, .released⟩] }

theorem scattered_indexed : scattered.Indexed := by
  intro position thread found
  simp only [scattered] at found
  match position with
  | 0 | 1 | 2 => cases found; rfl
  | position + 3 => simp at found

/-- The report of a save that ended well. -/
def reported : Except Fault (Drive σ) × ω → Option SaveReport
  | (.ok driving, _) => some driving.report
  | (.error _, _) => none

theorem of_reported {result : Except Fault (Drive σ) × ω} {report : SaveReport} (known : reported result = some report) :
    ∃ driving host, result = (.ok driving, host) ∧ driving.report = report := by
  rcases result with ⟨_ | driving, host⟩
  · cases known
  · exact ⟨driving, host, rfl, Option.some.inj known⟩

/-- Two resumes disturb the strict method, so it makes three passes, and the save still ends well. -/
theorem runToSave_sound_scattered :
    ∃ driving heard, runToSave (Counted.atFrame pure) 50 .strict scattered (⟨[.smp, .ppu]⟩ : Relay)
        (⟨(), 0, 0⟩ : Counted Unit) = (.ok driving, heard) ∧ driving.report = ⟨3, 2, 0⟩ ∧
      driving.scheduler.quiescent = true ∧ driving.scheduler.mode = .run ∧ driving.scheduler.active = .cpu ∧
      driving.report.desyncs.toNat ≤ heard.resumes := by
  obtain ⟨driving, heard, returned, report⟩ := of_reported (show reported (runToSave (Counted.atFrame pure) 50 .strict
    scattered (⟨[.smp, .ppu]⟩ : Relay) (⟨(), 0, 0⟩ : Counted Unit)) = some ⟨3, 2, 0⟩ by decide +kernel)
  obtain ⟨quiescent, mode, active, covered, _⟩ :=
    (runToSave_sound Relay.disciplined pure 50 .strict scattered scattered_indexed ⟨[.smp, .ppu]⟩ ()).of_ok returned
  exact ⟨driving, heard, returned, report, quiescent, mode, active, covered⟩

end MultiClock.Save
