import Mathlib.Tactic.Linarith
import MultiClock.Host.Notice

/-! Postconditions of computations that may break off with a fault. A proof names the faults that it
permits, so the same rules serve for a run that has to return and for one that merely may. -/

namespace MultiClock

/-- Yields a value with the postcondition, or breaks off with a permitted fault. -/
def Meets (permitted : Fault → Prop) (post : α → Prop) : Except Fault α → Prop
  | .ok value => post value
  | .error fault => permitted fault

theorem Except.bind_eq_ok {result : Except ε α} {next : α → Except ε β} {value : β}
    (returned : (result >>= next) = .ok value) : ∃ middle, result = .ok middle ∧ next middle = .ok value := by
  cases result with
  | ok middle => exact ⟨middle, rfl, returned⟩
  | error fault => cases returned

theorem Except.seqRight_eq_ok {first : Except ε α} {second : Except ε β} {value : β}
    (returned : (first *> second) = .ok value) : second = .ok value := by
  cases first with
  | ok => exact returned
  | error => cases returned

namespace Meets
variable {permitted : Fault → Prop}

theorem of_ok {post : α → Prop} {result : Except Fault α} {value : α} (meets : Meets permitted post result)
    (returned : result = .ok value) : post value := by
  rw [returned] at meets
  exact meets

theorem anything (result : Except Fault α) : Meets (fun _ => True) (fun _ => True) result := by
  cases result <;> trivial

theorem pure {post : α → Prop} {value : α} (holds : post value) :
    Meets permitted post (pure value : Except Fault α) := holds

theorem mono {post weaker : α → Prop} {result : Except Fault α} (meets : Meets permitted post result)
    (implies : ∀ value, post value → weaker value) : Meets permitted weaker result := by
  cases result with
  | ok value => exact implies value meets
  | error fault => exact meets

theorem permit {wider : Fault → Prop} {post : α → Prop} {result : Except Fault α} (meets : Meets permitted post result)
    (implies : ∀ fault, permitted fault → wider fault) : Meets wider post result := by
  cases result with
  | ok value => exact meets
  | error fault => exact implies fault meets

theorem bind {middle : α → Prop} {post : β → Prop} {result : Except Fault α} {next : α → Except Fault β}
    (first : Meets permitted middle result) (rest : ∀ value, middle value → Meets permitted post (next value)) :
    Meets permitted post (result >>= next) := by
  cases result with
  | ok value => exact rest value first
  | error fault => exact first

end Meets

namespace Run
variable {permitted : Fault → Prop}

/-- Like `Meets`, for a run that starts with what its host has heard so far. -/
def Meets (permitted : Fault → Prop) (post : α → ω → Prop) (run : Run ω α) (host : ω) : Prop :=
  match run host with
  | (.ok value, later) => post value later
  | (.error fault, _) => permitted fault

theorem bind_apply (run : Run ω α) (next : α → Run ω β) (host : ω) :
    (run >>= next) host =
      match run host with
      | (.ok value, later) => next value later
      | (.error fault, later) => (.error fault, later) := by
  simp only [Bind.bind, ExceptT.bind, ExceptT.mk, StateT.bind]
  rcases run host with ⟨_ | _, later⟩ <;> rfl

@[simp] theorem pure_apply (value : α) (host : ω) : (pure value : Run ω α) host = (.ok value, host) := rfl

@[simp] theorem throw_apply (fault : Fault) (host : ω) :
    (throw fault : Run ω α) host = (.error fault, host) := rfl

@[simp] theorem ofExcept_ok (value : α) : (Run.ofExcept (.ok value) : Run ω α) = pure value := rfl

@[simp] theorem ofExcept_error (fault : Fault) : (Run.ofExcept (.error fault) : Run ω α) = throw fault := rfl

/-- A run that ends well went well up to any point in it. -/
theorem bind_eq_ok {run : Run ω α} {next : α → Run ω β} {host later : ω} {value : β}
    (returned : (run >>= next) host = (.ok value, later)) :
    ∃ middle heard, run host = (.ok middle, heard) ∧ next middle heard = (.ok value, later) := by
  rw [bind_apply] at returned
  split at returned
  next middle heard first => exact ⟨middle, heard, first, returned⟩
  next => cases returned

theorem map_eq_ok {f : α → β} {run : Run ω α} {host later : ω} {value : β} (returned : (f <$> run) host = (.ok value, later)) :
    ∃ middle, run host = (.ok middle, later) ∧ f middle = value := by
  rw [← bind_pure_comp] at returned
  obtain ⟨middle, heard, first, same⟩ := bind_eq_ok returned
  cases same
  exact ⟨middle, first, rfl⟩

theorem lift_apply (action : StateM ω α) (host : ω) :
    (action : Run ω α) host = (.ok (action host).1, (action host).2) := rfl

theorem report_apply [Host ω] (notice : Notice) (host : ω) :
    (Run.report notice : Run ω Unit) host = (.ok (), Host.notice notice host) := rfl

theorem reportAll_apply [Host ω] (notices : List Notice) (host : ω) :
    (Run.reportAll notices : Run ω Unit) host = (.ok (), notices.foldr Host.notice host) := rfl

namespace Meets

theorem of_ok {post : α → ω → Prop} {run : Run ω α} {host later : ω} {value : α}
    (meets : run.Meets permitted post host) (returned : run host = (.ok value, later)) : post value later := by
  simpa only [Run.Meets, returned] using meets

/-- Nothing is permitted, so it returns. -/
theorem exists_ok {post : α → ω → Prop} {run : Run ω α} {host : ω} (meets : run.Meets (fun _ => False) post host) :
    ∃ value later, run host = (.ok value, later) ∧ post value later := by
  unfold Run.Meets at meets
  split at meets
  next value later returned => exact ⟨value, later, returned, meets⟩
  next => cases meets

theorem returned {post : α → ω → Prop} {run : Run ω α} {host : ω} (meets : run.Meets permitted post host) :
    run.Meets permitted (fun value later => run host = (.ok value, later) ∧ post value later) host := by
  unfold Run.Meets at meets ⊢
  split at meets
  next value later returned => exact ⟨returned, meets⟩
  next => exact meets

theorem mono {post weaker : α → ω → Prop} {run : Run ω α} {host : ω} (meets : run.Meets permitted post host)
    (implies : ∀ value later, post value later → weaker value later) : run.Meets permitted weaker host := by
  unfold Run.Meets at meets ⊢
  split at meets
  next value later _ => exact implies value later meets
  next => exact meets

theorem and {other : Fault → Prop} {first second : α → ω → Prop} {run : Run ω α} {host : ω}
    (meets : run.Meets permitted first host) (also : run.Meets other second host) :
    run.Meets permitted (fun value later => first value later ∧ second value later) host := by
  unfold Run.Meets at meets also ⊢
  split at meets
  next value later returned =>
    rw [returned] at also
    exact ⟨meets, also⟩
  next => exact meets

theorem bind {middle : α → ω → Prop} {post : β → ω → Prop} {run : Run ω α} {next : α → Run ω β} {host : ω}
    (first : run.Meets permitted middle host)
    (rest : ∀ value later, middle value later → (next value).Meets permitted post later) :
    (run >>= next).Meets permitted post host := by
  unfold Run.Meets at first ⊢
  rw [bind_apply]
  split at first
  next value later returned =>
    rw [returned]
    exact rest value later first
  next fault later broken =>
    rw [broken]
    exact first

theorem pure {post : α → ω → Prop} {value : α} {host : ω} (holds : post value host) :
    (pure value : Run ω α).Meets permitted post host := holds

theorem throw {post : α → ω → Prop} {fault : Fault} {host : ω} (allowed : permitted fault) :
    (throw fault : Run ω α).Meets permitted post host := allowed

/-- A computation without a listener keeps what the host has heard. -/
theorem ofExcept {post : α → ω → Prop} {result : Except Fault α} {host : ω}
    (meets : MultiClock.Meets permitted (post · host) result) :
    (Run.ofExcept result).Meets permitted post host := by
  cases result with
  | ok value => exact meets
  | error fault => exact meets

/-- What the host itself does never breaks off. -/
theorem lift {post : α → ω → Prop} {action : StateM ω α} {host : ω} (holds : post (action host).1 (action host).2) :
    Run.Meets permitted post (action : Run ω α) host := holds

theorem after_report [Host ω] {post : α → ω → Prop} {notice : Notice} {next : Unit → Run ω α} {host : ω}
    (rest : (next ()).Meets permitted post (Host.notice notice host)) :
    (Run.report notice >>= next).Meets permitted post host := by
  rw [Run.Meets, bind_apply, report_apply]
  exact rest

theorem after_reportAll [Host ω] {post : α → ω → Prop} {notices : List Notice} {next : Unit → Run ω α} {host : ω}
    (rest : (next ()).Meets permitted post (notices.foldr Host.notice host)) :
    (Run.reportAll notices >>= next).Meets permitted post host := by
  rw [Run.Meets, bind_apply, reportAll_apply]
  exact rest

end Meets

-- The rules above are all that a proof needs. Unfolding would make the elaborator execute the run.
attribute [irreducible] Run.Meets

end Run
end MultiClock
