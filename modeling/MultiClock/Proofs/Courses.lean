import MultiClock.Proofs.ActionEffects

/-! The course of a single chip, slice after slice, in surroundings that are free to change: between two slices of the chip the
bus, the threads and their clocks may become anything. What holds of every course holds of the chip in every machine. -/

namespace MultiClock

namespace Scheduler
variable {id : ThreadId} {scheduler later : Scheduler} {action : Action}

theorem transfer_step {units : UInt32} {clock : Int64} (stepped : scheduler.step id units = .ok (clock, later)) :
    later.transfer = scheduler.transfer := by
  unfold step at stepped
  split at stepped
  · obtain ⟨threads, _, same⟩ := Except.bind_eq_ok stepped
    cases same
    rfl
  · obtain ⟨reference, _, rest⟩ := Except.bind_eq_ok stepped
    obtain ⟨before, _, rest⟩ := Except.bind_eq_ok rest
    obtain ⟨after, _, same⟩ := Except.bind_eq_ok rest
    cases same
    rfl

theorem transfer_passed (scheduler : Scheduler) (id : ThreadId) : (scheduler.passed id).transfer = scheduler.transfer := rfl

/-- A transfer that was not asked for before is the one that the action asks for. -/
theorem Does.asked (does : scheduler.Does id action later) :
    (if scheduler.transfer = none then later.transfer else none) = action.request scheduler.desynchronized := by
  have same : later.transfer = scheduler.transfer → (if scheduler.transfer = none then later.transfer else none) = none := by
    intro same
    rw [same]
    split
    next free => exact free
    next => rfl
  cases does with
  | rest => exact same rfl
  | step stepped => exact same (transfer_step stepped)
  | pass point =>
    obtain ⟨_, _, _, rfl⟩ := passed_of_point point
    exact same (transfer_passed _ _)
  | passStep point stepped =>
    obtain ⟨_, _, _, rfl⟩ := passed_of_point point
    exact same ((transfer_step stepped).trans (transfer_passed _ _))
  | stop point =>
    obtain ⟨_, _, _, ⟨impossible, _⟩ | ⟨_, _, free, rfl⟩⟩ := synchronizePoint_eq_ok.mp point
    · cases impossible
    · exact if_pos free
  | resume resumed =>
    obtain ⟨_, free, _, rfl⟩ := resume_eq_ok.mp resumed
    exact if_pos free
  | frame left =>
    obtain ⟨_, free, rfl⟩ := leave_eq_ok.mp left
    exact if_pos free

end Scheduler

/-- A slice of a chip: the chip and what it can reach, before and after. -/
structure Episode (χ : Type) where
  before : χ
  given : Context
  after : χ
  left : Context

namespace Episode
variable {χ : Type}

/-- The transfer of control that the slice asked for. -/
def asked (episode : Episode χ) : Option Scheduler.Transfer :=
  if episode.given.scheduler.transfer = none then episode.left.scheduler.transfer else none

/-- The slice is one of the chip's, and it succeeded. -/
def Happens [Chip χ] (episode : Episode χ) : Prop :=
  Chip.slice episode.before episode.given = .ok (episode.after, episode.left)

theorem asked_of_does {episode : Episode χ} {action : Action} (does : episode.given.Does action episode.left) :
    episode.asked = action.request episode.given.scheduler.desynchronized :=
  does.scheduler.asked

end Episode

/-- The chip goes from one state to another in these slices. -/
inductive Course {χ : Type} [Chip χ] : χ → List (Episode χ) → χ → Prop
  | rest (chip : χ) : Course chip [] chip
  | slice {before after last : χ} {given left : Context} {episodes : List (Episode χ)}
      (happens : (Episode.mk before given after left).Happens) (more : Course after episodes last) :
      Course before (⟨before, given, after, left⟩ :: episodes) last

namespace Course
variable {χ : Type} [Chip χ] {first middle last : χ} {earlier later episodes : List (Episode χ)} {episode : Episode χ}

theorem append (begins : Course first earlier middle) (ends : Course middle later last) : Course first (earlier ++ later) last := by
  induction begins with
  | rest => exact ends
  | slice happens _ ih => exact .slice happens (ih ends)

theorem split (course : Course first (earlier ++ later) last) : ∃ middle, Course first earlier middle ∧ Course middle later last := by
  induction earlier generalizing first with
  | nil => exact ⟨first, .rest first, course⟩
  | cons episode earlier ih =>
    cases course with
    | slice happens more =>
      obtain ⟨middle, begins, ends⟩ := ih more
      exact ⟨middle, .slice happens begins, ends⟩

/-- The last slice of a course, and the course up to it. -/
theorem final (course : Course first (episodes ++ [episode]) last) :
    Course first episodes episode.before ∧ episode.Happens ∧ episode.after = last := by
  obtain ⟨middle, begins, ends⟩ := course.split
  cases ends with
  | slice happens more =>
    cases more
    exact ⟨begins, happens, rfl⟩

theorem happens (course : Course first episodes last) : ∀ episode ∈ episodes, episode.Happens := by
  induction course with
  | rest => exact fun _ impossible => nomatch impossible
  | slice happens _ ih => exact List.forall_mem_cons.mpr ⟨happens, ih⟩

/-- What every slice keeps holds all along. -/
theorem keeps {invariant : χ → Prop} (course : Course first episodes last)
    (kept : ∀ episode : Episode χ, episode.Happens → invariant episode.before → invariant episode.after) (holds : invariant first) :
    (∀ episode ∈ episodes, invariant episode.before) ∧ invariant last := by
  induction course with
  | rest => exact ⟨fun _ impossible => (nomatch impossible), holds⟩
  | slice happens _ ih =>
    obtain ⟨all, ends⟩ := ih (kept _ happens holds)
    exact ⟨List.forall_mem_cons.mpr ⟨holds, all⟩, ends⟩

end Course
namespace Context

/-- Surroundings in which a chip may do a slice: normal execution, and every thread level with the reference. -/
def level (id : ThreadId) : Context :=
  let threads := [ThreadId.cpu, .smp, .ppu, .coprocessor 0, .coprocessor 1, .coprocessor 2, .coprocessor 3].map
    fun id => Thread.new id Clock.cpuFrequency
  ⟨Bus.new 4, ⟨.run, .frame, id, true, false, threads.toArray, none⟩, id, []⟩

theorem level_ready {id : ThreadId} (present : id.index < 7) : (level id).Ready := by
  refine ⟨?_, rfl, rfl, rfl, present, Nat.succ_pos 6⟩
  rintro (_ | _ | _ | _ | _ | _ | _ | position) thread found <;> cases found <;> rfl

theorem level_calm (id : ThreadId) : (level id).Calm := by
  intro thread member
  obtain ⟨name, _, rfl⟩ := List.mem_map.mp (List.mem_toArray.mp member)
  have calm : (Clock.new Clock.cpuFrequency).Calm := ⟨by decide, by decide⟩
  exact calm

end Context
end MultiClock
