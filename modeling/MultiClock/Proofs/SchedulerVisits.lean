import MultiClock.Proofs.ActionEffects
import MultiClock.Proofs.SerializerLaws

/-! The visitors of threads. A clock that is too far away is put back to the reference, even while it is
only counted or written; a clock that is near is kept. -/

namespace MultiClock

open Visit

variable {mode : Serializer.Mode}

namespace Thread

def setTo (thread : Thread) (value : Int64) : Thread := { thread with clock := ⟨thread.clock.frequency, value⟩ }

/-- A clock that a snapshot may hold. -/
def Near (thread : Thread) : Prop := thread.distance ≤ Clock.maxDistance

theorem near_zero (thread : Thread) : (thread.setTo 0).Near := by
  simp only [Near, setTo, distance]
  decide

theorem serialize_yields (thread : Thread) : Yields mode 12 thread.serialize fun later =>
    ∃ value, later = thread.setTo value ∧ later.Near ∧
      (mode ≠ .load → value = thread.clock.value ∨ value = 0) := by
  have clock : Yields mode 12 (Serializable.serialize thread.clock) fun later => mode ≠ .load → later = thread.clock :=
    .of_size (.bind (.word _) fun frequency same => .bind (.word _) fun value kept => .pure fun writing => by
      rw [same writing, kept writing]) rfl
  refine .of_size (.bind clock fun clock same => .bind (.require _ _ _ _) fun frequency matched =>
    .bind (.require _ _ _ _) fun value checked => .pure ⟨value, ?_⟩) rfl
  have frequency_eq : frequency = thread.clock.frequency := by
    rcases matched with ⟨matched, rfl⟩ | ⟨_, rfl⟩
    · exact eq_of_beq matched
    · rfl
  subst frequency_eq
  rcases checked with ⟨near, rfl⟩ | ⟨_, rfl⟩
  · have close : (thread.setTo clock.value).distance ≤ Clock.maxDistance := of_decide_eq_true near
    exact ⟨rfl, close, fun writing => .inl (by rw [same writing])⟩
  · exact ⟨rfl, near_zero thread, fun _ => .inr rfl⟩

theorem serialize_transfers {thread base : Thread} (near : thread.Near) (alike : base.clock.frequency = thread.clock.frequency) :
    Transfers thread.serialize base.serialize thread (base.setTo thread.clock.value) := by
  have clock : Transfers (Serializable.serialize thread.clock) (Serializable.serialize base.clock) thread.clock thread.clock :=
    .bind (.word _ _) (.bind (.word _ _) (.pure _ _))
  have close : decide (thread.distance ≤ Clock.maxDistance) = true := decide_eq_true near
  have same : (thread.clock.frequency == thread.clock.frequency) = true := BEq.rfl
  simp only [serialize, setTo, alike]
  exact .bind clock (.bind (.require same _ _) (.bind (.require close _ _) (.pure _ _)))

theorem serializeStack_yields (thread : Thread) : Yields mode 1 thread.serializeStack fun later =>
    later.id = thread.id ∧ later.clock = thread.clock ∧ (mode ≠ .load → later = thread) := by
  refine .of_size (.bind (.word _) fun code same => (?_ : Yields mode 0 _ _)) rfl
  split
  next state found =>
    refine .pure ⟨rfl, rfl, fun writing => ?_⟩
    rw [same writing, State.ofCode?_code] at found
    cases found
    rfl
  next => exact .bind (.reject _) fun _ _ => .pure ⟨rfl, rfl, fun _ => rfl⟩

theorem serializeStack_transfers (thread base : Thread) :
    Transfers thread.serializeStack base.serializeStack thread { base with state := thread.state } := by
  refine .bind (.word _ _) ?_
  simp only [State.ofCode?_code]
  exact .pure _ _

end Thread

namespace Scheduler
variable {scheduler base : Scheduler} {id : ThreadId} {thread : Thread}

/-- The scheduler with the clock of one thread at another value. -/
def withTime (scheduler : Scheduler) (id : ThreadId) (value : Int64) : Scheduler :=
  scheduler.modifyThread id fun thread => thread.setTo value

theorem shape_withTime (value : Int64) : (scheduler.withTime id value).shape = scheduler.shape :=
  shape_modifyThread scheduler id _ fun _ => ⟨rfl, rfl⟩

theorem thread?_withTime (value : Int64) (other : ThreadId) : (scheduler.withTime id value).thread? other =
    if id = other then (scheduler.thread? other).map fun thread => thread.setTo value else scheduler.thread? other :=
  thread?_modifyThread scheduler id other fun thread => thread.setTo value

theorem state?_withTime (value : Int64) (other : ThreadId) :
    (scheduler.withTime id value).state? other = scheduler.state? other := by
  rw [withTime, state?_modifyThread]
  split
  next => rfl
  next => rfl

theorem time_withTime (found : scheduler.thread? id = some thread) (value : Int64) (other : ThreadId) :
    (scheduler.withTime id value).time other = if id = other then value.toInt else scheduler.time other := by
  rw [time, thread?_withTime]
  split
  next same =>
    subst same
    simp [found, Thread.setTo]
  next => rfl

theorem modifyThread_congr (found : scheduler.thread? id = some thread) {first second : Thread → Thread}
    (same : first thread = second thread) : scheduler.modifyThread id first = scheduler.modifyThread id second := by
  simp only [modifyThread, Scheduler.mk.injEq, true_and, and_true]
  refine Array.ext_getElem? fun position => ?_
  rw [Array.getElem?_modify, Array.getElem?_modify]
  split
  next here =>
    rw [← here, show scheduler.threads[id.index]? = some thread from found]
    exact congrArg some same
  next => rfl

theorem modifyThread_same (found : scheduler.thread? id = some thread) {change : Thread → Thread}
    (same : change thread = thread) : scheduler.modifyThread id change = scheduler := by
  suffices kept : scheduler.threads.modify id.index change = scheduler.threads by rw [modifyThread, kept]
  refine Array.ext_getElem? fun position => ?_
  rw [Array.getElem?_modify]
  split
  next here =>
    rw [← here, show scheduler.threads[id.index]? = some thread from found]
    exact congrArg some same
  next => rfl

theorem serializeThread_yields (found : scheduler.thread? id = some thread) :
    Yields mode 12 (scheduler.serializeThread id) fun later => ∃ value, later = scheduler.withTime id value ∧
      (thread.setTo value).Near ∧ (id = .cpu → value = 0) ∧ (mode ≠ .load → value = thread.clock.value ∨ value = 0) := by
  rw [serializeThread]
  simp only [found]
  refine .of_size (.bind thread.serialize_yields fun visited read => .bind (.require _ _ _ _) fun value checked => .pure ?_) rfl
  obtain ⟨first, rfl, near, kept⟩ := read
  refine ⟨value, modifyThread_congr found rfl, ?_⟩
  rcases checked with ⟨standing, rfl⟩ | ⟨_, rfl⟩
  · refine ⟨near, fun reference => ?_, kept⟩
    simpa [reference, Thread.setTo] using standing
  · exact ⟨thread.near_zero, fun _ => rfl, fun _ => .inr rfl⟩

theorem serializeThread_transfers {rest : Thread} (found : scheduler.thread? id = some thread)
    (present : base.thread? id = some rest) (near : thread.Near) (standing : id = .cpu → thread.clock.value = 0)
    (alike : rest.clock.frequency = thread.clock.frequency) :
    Transfers (scheduler.serializeThread id) (base.serializeThread id) scheduler (base.withTime id thread.clock.value) := by
  have accepted : (id != .cpu || thread.clock.value == 0) = true := by
    by_cases reference : id = .cpu
    · simp [standing reference]
    · simp [reference]
  rw [serializeThread, serializeThread]
  simp only [found, present]
  exact .bind (thread.serialize_transfers near alike) (.bind (.require accepted _ _)
    ((Transfers.pure _ _).as (modifyThread_same found rfl) (modifyThread_congr present rfl)))

/-- What a visit of all that goes with suspended chips keeps. -/
structure Restacked (mode : Serializer.Mode) (before after : Scheduler) : Prop where
  control : after.mode = before.mode
  entered : after.entered = before.entered
  transfer : after.transfer = before.transfer
  shape : after.shape = before.shape
  clocks : ∀ id, (after.thread? id).map Thread.clock = (before.thread? id).map Thread.clock
  threads : mode ≠ .load → after.threads = before.threads
  active : 0 < after.threads.size → after.active.index < after.threads.size

theorem serializeStack_yields (scheduler : Scheduler) :
    Yields mode (2 + scheduler.threads.size) scheduler.serializeStack (Restacked mode scheduler) := by
  refine .of_size (.bind (.word _) fun active _ => .bind (.boolean _) fun flag _ =>
    .bind (.array _ fun thread _ => thread.serializeStack_yields) fun threads visited => (?_ : Yields mode 0 _ _)) ?_
  · obtain ⟨size, kept⟩ := visited
    have views : ∀ position : Nat, (threads[position]?).map (fun thread => (thread.id, thread.clock)) =
        (scheduler.threads[position]?).map fun thread => (thread.id, thread.clock) := by
      intro position
      cases found : scheduler.threads[position]? with
      | none =>
        have outside := Array.getElem?_eq_none_iff.mp found
        rw [Array.getElem?_eq_none_iff.mpr (size ▸ outside)]
      | some thread =>
        obtain ⟨after, there, id, clock, _⟩ := kept position thread found
        simp [there, id, clock]
    have restacked : ∀ active : ThreadId, (0 < threads.size → active.index < threads.size) →
        Restacked mode scheduler { scheduler with active, desynchronized := flag, threads } := by
      refine fun active inside => ⟨rfl, rfl, rfl, List.ext_getElem? fun position => ?_, fun id => ?_, fun writing => ?_, inside⟩
      · have same := congrArg (Option.map fun view : ThreadId × Clock => (view.1, view.2.frequency)) (views position)
        simpa [shape, Option.map_map, Function.comp_def] using same
      · have same := congrArg (Option.map Prod.snd) (views id.index)
        simpa [thread?, Option.map_map, Function.comp_def] using same
      · refine Array.ext_getElem? fun position => ?_
        cases found : scheduler.threads[position]? with
        | none => exact Array.getElem?_eq_none_iff.mpr (size ▸ Array.getElem?_eq_none_iff.mp found)
        | some thread =>
          obtain ⟨after, there, _, _, same⟩ := kept position thread found
          rw [there, same writing]
    simp only
    split
    next id known => exact .pure (restacked id fun _ => of_decide_eq_true (Option.filter_eq_some_iff.mp known).2)
    next => exact .bind (.reject _) fun _ _ => .pure (restacked .cpu id)
  · simp only [Word.size]
    omega

/-- Only the low byte of the active thread's number is carried over, so another thread may take its place on both sides. -/
theorem serializeStack_narrows (named : ThreadId.ofIndex? id.index = some id) (narrowed : id.index = scheduler.active.index % 256)
    (inside : id.index < scheduler.threads.size) (size : scheduler.threads.size = base.threads.size) :
    Transfers scheduler.serializeStack base.serializeStack { scheduler with active := id } { base with
      active := id
      desynchronized := scheduler.desynchronized
      threads := Array.zipWith (fun thread rest => { rest with state := thread.state }) scheduler.threads base.threads } := by
  refine .bind (.word _ _) (.bind (.boolean _ _) (.bind (.arrayWith _ size fun _ thread rest _ _ =>
    thread.serializeStack_transfers rest) ?_))
  have number : (UInt8.ofNat scheduler.active.index).toNat = id.index := by
    rw [UInt8.toNat_ofNat', narrowed]
  have known : ((ThreadId.ofIndex? (UInt8.ofNat scheduler.active.index).toNat).filter fun id =>
      decide (id.index < scheduler.threads.size)) = some id := by
    rw [number, named, Option.filter_some, if_pos (decide_eq_true inside)]
  have merged : (Array.zipWith (fun thread rest : Thread => { rest with state := thread.state }) scheduler.threads base.threads).size =
      scheduler.threads.size := by
    rw [Array.size_zipWith, size, Nat.min_self]
  simp only [known, merged]
  exact .pure _ _

theorem serializeStack_transfers (named : ThreadId.ofIndex? scheduler.active.index = some scheduler.active)
    (inside : scheduler.active.index < scheduler.threads.size) (few : scheduler.threads.size ≤ 256)
    (size : scheduler.threads.size = base.threads.size)
    (alike : ∀ (position : Nat) thread rest, scheduler.threads[position]? = some thread → base.threads[position]? = some rest →
      rest.id = thread.id ∧ rest.clock = thread.clock) :
    Transfers scheduler.serializeStack base.serializeStack scheduler { base with
      active := scheduler.active, desynchronized := scheduler.desynchronized, threads := scheduler.threads } := by
  have narrowed : scheduler.active.index = scheduler.active.index % 256 := by omega
  refine (serializeStack_narrows named narrowed inside size).as rfl ?_
  have same : Array.zipWith (fun thread rest : Thread => { rest with state := thread.state }) scheduler.threads base.threads =
      scheduler.threads := by
    apply Array.ext
    · rw [Array.size_zipWith, size, Nat.min_self]
    · intro position _ within
      obtain ⟨id, clock⟩ := alike position _ _ (Array.getElem?_eq_getElem within) (Array.getElem?_eq_getElem (size ▸ within))
      rw [Array.getElem_zipWith, id, clock]
  rw [same]

end Scheduler
end MultiClock
