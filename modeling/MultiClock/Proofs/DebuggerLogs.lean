import Mathlib.Data.List.Nodup
import MultiClock.Host.Debugger
import MultiClock.Proofs.RecentItems

/-! What debuggers log over any sequence of calls. Of the calls that turn any debugger on or off the last one sets the switch, and of
those to one debugger the last one sets that debugger. The calls about a filter make it a log point or not. Together they decide which
activities are logged. -/

namespace MultiClock

namespace Debugger

/-- What can be asked of a debugger. -/
inductive Request
  | enable
  | disable
  | add (filter : ActivityFilter)
  | remove (filter : ActivityFilter)
  | toggle (filter : ActivityFilter)
  | emit (activity : Activity)
  | takeLog
deriving DecidableEq, Repr

/-- What a request turns the debugger and the switch to. -/
def Request.turns? : Request → Option Bool
  | enable => some true
  | disable => some false
  | _ => none

/-- Whether the filter is a log point after the request. -/
def Request.Leaves (filter : ActivityFilter) (present : Prop) : Request → Prop
  | add added => filter = added ∨ present
  | remove removed => filter ≠ removed ∧ present
  | toggle toggled => if filter = toggled then ¬ present else present
  | _ => present

/-- The debugger after a request to it, which reaches it with the switch on or off. -/
def answer (on : Bool) (debugger : Debugger) : Request → Debugger
  | .enable => { debugger with enabled := true }
  | .disable => { debugger with enabled := false }
  | .add filter => debugger.add filter
  | .remove filter => debugger.remove filter
  | .toggle filter => debugger.toggle filter
  | .emit activity => if on then debugger.collect activity else debugger
  | .takeLog => debugger.takeLog.2

variable {debugger : Debugger} {filter other : ActivityFilter}

theorem has_iff : debugger.has filter ↔ filter ∈ debugger.logPoints := List.contains_iff_mem

theorem mem_add : other ∈ (debugger.add filter).logPoints ↔ other = filter ∨ other ∈ debugger.logPoints := by
  unfold add
  split
  next there =>
    apply Iff.symm
    apply or_iff_right_of_imp
    intro same
    exact same ▸ has_iff.mp there
  next => simp [or_comm]

theorem mem_remove : other ∈ (debugger.remove filter).logPoints ↔ other ≠ filter ∧ other ∈ debugger.logPoints := by
  simp [remove, and_comm]

theorem mem_toggle : other ∈ (debugger.toggle filter).logPoints ↔
    if other = filter then other ∉ debugger.logPoints else other ∈ debugger.logPoints := by
  unfold toggle
  split
  next there =>
    have present := has_iff.mp there
    rw [mem_remove]
    split <;> simp_all
  next missing =>
    have absent := mt has_iff.mpr missing
    rw [mem_add]
    split <;> simp_all

theorem nodup_add (distinct : debugger.logPoints.Nodup) : (debugger.add filter).logPoints.Nodup := by
  unfold add
  split
  next => exact distinct
  next missing =>
    have absent : filter ∉ debugger.logPoints := mt has_iff.mpr missing
    apply List.Nodup.append distinct (List.nodup_singleton filter)
    simpa using absent

theorem nodup_remove (distinct : debugger.logPoints.Nodup) : (debugger.remove filter).logPoints.Nodup := distinct.filter _

theorem nodup_toggle (distinct : debugger.logPoints.Nodup) : (debugger.toggle filter).logPoints.Nodup := by
  unfold toggle
  split
  · exact nodup_remove distinct
  · exact nodup_add distinct

/-- A new log point goes to the end, and one that goes leaves the others in order. -/
theorem others_toggle (debugger : Debugger) (filter : ActivityFilter) :
    (debugger.toggle filter).logPoints.filter (· != filter) = debugger.logPoints.filter (· != filter) := by
  unfold toggle
  split
  next => simp [remove, List.filter_filter]
  next missing => simp [add, missing]

theorem add_log (debugger : Debugger) (filter : ActivityFilter) : (debugger.add filter).log = debugger.log := by
  unfold add
  split <;> rfl

theorem toggle_log (debugger : Debugger) (filter : ActivityFilter) : (debugger.toggle filter).log = debugger.log := by
  unfold toggle
  split
  · rfl
  · exact debugger.add_log filter

/-- With the switch on, the debugger keeps the activity. -/
def Keeps (on : Bool) (activity : Activity) (debugger : Debugger) : Prop :=
  on ∧ debugger.enabled ∧ ∃ filter ∈ debugger.logPoints, filter.accepts activity

section answers
variable (on : Bool) (debugger : Debugger) (request : Request)

theorem answer_kept {activity : Activity} (keeps : debugger.Keeps on activity) :
    debugger.answer on (.emit activity) = { debugger with log := debugger.log.push activity } := by
  obtain ⟨switched, enabled, matched⟩ := keeps
  have collects : (debugger.enabled && debugger.logPoints.any (·.accepts activity)) = true := by
    simpa [enabled] using matched
  rw [answer, if_pos switched]
  exact if_pos collects

theorem answer_ignored {activity : Activity} (ignores : ¬ debugger.Keeps on activity) :
    debugger.answer on (.emit activity) = debugger := by
  rw [answer]
  split
  next switched =>
    apply if_neg
    intro collects
    rw [Bool.and_eq_true, List.any_eq_true] at collects
    exact ignores ⟨switched, collects⟩
  next => rfl

theorem answer_enabled : (debugger.answer on request).enabled = request.turns?.getD debugger.enabled := by
  cases request with
  | enable => rfl
  | disable => rfl
  | add filter =>
    simp only [answer, add]
    split <;> rfl
  | remove filter => rfl
  | toggle filter =>
    simp only [answer, toggle, add, remove]
    split <;> rfl
  | emit activity =>
    by_cases keeps : debugger.Keeps on activity
    · rw [answer_kept on debugger keeps]
      rfl
    · rw [answer_ignored on debugger keeps]
      rfl
  | takeLog => rfl

theorem mem_answer (filter : ActivityFilter) :
    filter ∈ (debugger.answer on request).logPoints ↔ request.Leaves filter (filter ∈ debugger.logPoints) := by
  cases request with
  | enable => exact Iff.rfl
  | disable => exact Iff.rfl
  | add added => exact mem_add
  | remove removed => exact mem_remove
  | toggle toggled => exact mem_toggle
  | emit activity =>
    by_cases keeps : debugger.Keeps on activity
    · rw [answer_kept on debugger keeps]
      exact Iff.rfl
    · rw [answer_ignored on debugger keeps]
      exact Iff.rfl
  | takeLog => exact Iff.rfl

theorem nodup_answer (distinct : debugger.logPoints.Nodup) : (debugger.answer on request).logPoints.Nodup := by
  cases request with
  | enable => exact distinct
  | disable => exact distinct
  | add filter => exact nodup_add distinct
  | remove filter => exact nodup_remove distinct
  | toggle filter => exact nodup_toggle distinct
  | emit activity =>
    by_cases keeps : debugger.Keeps on activity
    · rw [answer_kept on debugger keeps]
      exact distinct
    · rw [answer_ignored on debugger keeps]
      exact distinct
  | takeLog => exact distinct

end answers

end Debugger

namespace Debuggers

/-- A request to one of so many debuggers. -/
structure Call (count : Nat) where
  debugger : Fin count
  request : Debugger.Request

def perform (debuggers : Debuggers) (index : Nat) : Debugger.Request → Debuggers
  | .enable => debuggers.enable index true
  | .disable => debuggers.enable index false
  | .add filter => debuggers.modify index (Debugger.add filter)
  | .remove filter => debuggers.modify index (Debugger.remove filter)
  | .toggle filter => debuggers.modify index (Debugger.toggle filter)
  | .emit activity => debuggers.emit index activity
  | .takeLog => (debuggers.takeLog index).2

/-- The debuggers after all calls so far, of which the newest comes first. -/
def after : List (Call count) → Debuggers
  | [] => new count
  | call :: past => (after past).perform call.debugger call.request

/-- Of the calls that turn any debugger on or off the most recent one turns it on. -/
def switchedOn (past : List (Call count)) : Bool := (past.findSome? fun call => call.request.turns?).getD false

/-- Of the calls that turn this debugger on or off the most recent one turns it on. -/
def enabledAt (index : Fin count) (past : List (Call count)) : Bool :=
  (past.findSome? fun call => if call.debugger = index then call.request.turns? else none).getD false

/-- The filter is a log point of the debugger. -/
def Present (index : Fin count) (filter : ActivityFilter) : List (Call count) → Prop
  | [] => False
  | call :: past =>
    if call.debugger = index then call.request.Leaves filter (Present index filter past) else Present index filter past

/-- An activity that is emitted to the debugger at this moment is logged. -/
structure Notes (index : Fin count) (past : List (Call count)) (activity : Activity) : Prop where
  switched : switchedOn past
  enabled : enabledAt index past
  accepted : ∃ filter, Present index filter past ∧ filter.accepts activity

noncomputable instance (index : Fin count) (past : List (Call count)) (activity : Activity) : Decidable (Notes index past activity) :=
  Classical.propDecidable _

/-- The activities that were logged since the debugger's log was taken, oldest first. -/
noncomputable def noted (index : Fin count) : List (Call count) → List Activity
  | [] => []
  | call :: past =>
    if call.debugger = index then
      match call.request with
      | .takeLog => []
      | .emit activity => if Notes index past activity then noted index past ++ [activity] else noted index past
      | _ => noted index past
    else noted index past

variable {past : List (Call count)} {debugger : Debugger} {index : Fin count}

/-- The state of one debugger as the calls so far tell it. -/
structure Told (index : Fin count) (past : List (Call count)) (debugger : Debugger) : Prop where
  enabled : debugger.enabled = enabledAt index past
  points : ∀ filter, filter ∈ debugger.logPoints ↔ Present index filter past
  distinct : debugger.logPoints.Nodup
  log : debugger.log.Recalls (noted index past)

theorem Told.keeps_iff (told : Told index past debugger) (activity : Activity) :
    debugger.Keeps (switchedOn past) activity ↔ Notes index past activity := by
  constructor
  · intro keeps
    obtain ⟨switched, enabled, filter, within, accepts⟩ := keeps
    exact ⟨switched, told.enabled ▸ enabled, filter, (told.points filter).mp within, accepts⟩
  · intro notes
    obtain ⟨filter, present, accepts⟩ := notes.accepted
    exact ⟨notes.switched, told.enabled.symm ▸ notes.enabled, filter, (told.points filter).mpr present, accepts⟩

theorem noted_self (request : Debugger.Request) : noted index (⟨index, request⟩ :: past) =
    match request with
    | .takeLog => []
    | .emit activity => if Notes index past activity then noted index past ++ [activity] else noted index past
    | _ => noted index past := if_pos rfl

theorem Told.recalls (told : Told index past debugger) (request : Debugger.Request) :
    (debugger.answer (switchedOn past) request).log.Recalls (noted index (⟨index, request⟩ :: past)) := by
  rw [noted_self]
  cases request with
  | enable => exact told.log
  | disable => exact told.log
  | add filter =>
    rw [Debugger.answer, Debugger.add_log]
    exact told.log
  | remove filter => exact told.log
  | toggle filter =>
    rw [Debugger.answer, Debugger.toggle_log]
    exact told.log
  | emit activity =>
    by_cases keeps : debugger.Keeps (switchedOn past) activity
    · have notes := (told.keeps_iff activity).mp keeps
      simp only [Debugger.answer_kept _ debugger keeps, if_pos notes]
      exact told.log.push activity
    · have ignores := mt (told.keeps_iff activity).mpr keeps
      simp only [Debugger.answer_ignored _ debugger keeps, if_neg ignores]
      exact told.log
  | takeLog => exact Recent.recalls_empty

theorem Told.answer (told : Told index past debugger) (request : Debugger.Request) :
    Told index (⟨index, request⟩ :: past) (debugger.answer (switchedOn past) request) where
  enabled := by
    rw [Debugger.answer_enabled, told.enabled, enabledAt, enabledAt]
    cases turned : request.turns? <;> simp [turned]
  points filter := by simp [Debugger.mem_answer, Present, told.points]
  distinct := Debugger.nodup_answer _ _ _ told.distinct
  log := told.recalls request

theorem Told.other (told : Told index past debugger) {call : Call count} (other : call.debugger ≠ index) :
    Told index (call :: past) debugger where
  enabled := by simpa [enabledAt, other] using told.enabled
  points := by simpa [Present, other] using told.points
  distinct := told.distinct
  log := by simpa [noted, other] using told.log

theorem perform_eventsOn (debuggers : Debuggers) (index : Nat) (request : Debugger.Request) :
    (debuggers.perform index request).eventsOn = request.turns?.getD debuggers.eventsOn := by
  cases request with
  | emit activity =>
    simp only [perform, emit]
    split <;> rfl
  | _ => rfl

theorem perform_members (debuggers : Debuggers) (index : Nat) (request : Debugger.Request) :
    (debuggers.perform index request).members = debuggers.members.modify index (·.answer debuggers.eventsOn request) := by
  cases request with
  | emit activity =>
    simp only [perform, emit, Debugger.answer]
    split
    next => rfl
    next => exact (Array.ext_getElem? fun position => by simp [Array.getElem?_modify])
  | _ => rfl

/-- All debuggers and their switch as the calls so far tell them. -/
structure Traced (past : List (Call count)) (debuggers : Debuggers) : Prop where
  size : debuggers.members.size = count
  switch : debuggers.eventsOn = switchedOn past
  told : ∀ index : Fin count, Told index past (debuggers.get index)

theorem get_perform {debuggers : Debuggers} (size : debuggers.members.size = count) (call : Call count) (index : Fin count) :
    (debuggers.perform call.debugger call.request).get index =
      if call.debugger = index then (debuggers.get index).answer debuggers.eventsOn call.request else debuggers.get index := by
  have inside : index.val < debuggers.members.size := size.symm ▸ index.isLt
  rw [get, perform_members, Array.getD_eq_getD_getElem?, Array.getElem?_modify, get, Array.getD_eq_getD_getElem?,
    Array.getElem?_eq_getElem inside]
  simp only [Fin.ext_iff]
  split <;> rfl

theorem Traced.perform {debuggers : Debuggers} (traced : Traced past debuggers) (call : Call count) :
    Traced (call :: past) (debuggers.perform call.debugger call.request) where
  size := by rw [perform_members, Array.size_modify, traced.size]
  switch := by
    rw [perform_eventsOn, traced.switch, switchedOn, switchedOn]
    cases turned : call.request.turns? <;> simp [turned]
  told index := by
    rw [get_perform traced.size, traced.switch]
    split
    next same => exact same ▸ (traced.told call.debugger).answer call.request
    next other => exact (traced.told index).other other

theorem told_new (index : Fin count) : Told index [] Debugger.new where
  enabled := rfl
  points filter := iff_of_false List.not_mem_nil id
  distinct := List.nodup_nil
  log := by
    rw [noted]
    exact Recent.recalls_empty

theorem traced_new : Traced ([] : List (Call count)) (new count) where
  size := Array.size_replicate
  switch := rfl
  told index := by
    have fresh : (new count).get index = Debugger.new := by simp [new, get]
    exact fresh.symm ▸ told_new index

theorem traced_after (past : List (Call count)) : Traced past (after past) := by
  induction past with
  | nil => exact traced_new
  | cons call past traced => exact traced.perform call

/-- Whatever was called before, a log that is taken holds the last 1024 activities that were emitted to the debugger since it was taken
before, each at a moment when the switch was on, the debugger was enabled and one of its log points accepted the activity. It is empty
afterwards. Log points are distinct, and toggling one of them leaves the others as they were. -/
theorem logs_kept (past : List (Call count)) (index : Fin count) :
    ((after past).takeLog index).1.toList = (noted index past).rtake 1024 ∧
      ((after (⟨index, .takeLog⟩ :: past)).get index).log = .empty ∧
      ((after past).get index).logPoints.Nodup ∧
      ∀ filter, let points := ((after past).get index).logPoints
        let toggled := ((after (⟨index, .toggle filter⟩ :: past)).get index).logPoints
        (filter ∈ toggled ↔ filter ∉ points) ∧ toggled.filter (· != filter) = points.filter (· != filter) := by
  have traced := traced_after past
  have answered (request : Debugger.Request) : (after (⟨index, request⟩ :: past)).get index =
      ((after past).get index).answer (after past).eventsOn request := (get_perform traced.size ⟨index, request⟩ index).trans (if_pos rfl)
  refine ⟨(traced.told index).log, ?_, (traced.told index).distinct, fun filter => ⟨?_, ?_⟩⟩
  · rw [answered]
    rfl
  · rw [answered, Debugger.mem_answer]
    exact iff_of_eq (if_pos rfl)
  · rw [answered]
    exact Debugger.others_toggle _ filter

/-- Two log points log an activity once, and the switch is off again after another debugger was disabled. -/
example : ((after ([⟨0, .emit (.leave .cpu .frame)⟩, ⟨1, .disable⟩, ⟨0, .emit (.leave .ppu .frame)⟩, ⟨0, .emit (.resume .cpu .smp)⟩,
    ⟨0, .toggle (.leave (some .frame))⟩, ⟨0, .add (.leave none)⟩, ⟨0, .enable⟩] : List (Call 2))).takeLog 0).1 =
      #[.leave .ppu .frame] := by
  decide +kernel

end Debuggers
end MultiClock
