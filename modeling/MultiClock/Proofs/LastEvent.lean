import MultiClock.Proofs.BoardTurns
import MultiClock.Proofs.DriveRules

/-! Why control last came back to the host is for the host alone. No slice reads it and every entry ends by
setting it anew, and no snapshot holds it, so machines that differ in nothing else run and are saved alike. -/

namespace MultiClock

/-- A computation that is carried along by a change of its values. -/
theorem Except.map_bind_of {first : Except ε α} {change : α → β} {follow : β → Except ε γ} {next : α → Except ε δ}
    {last : δ → γ} (each : ∀ value, follow (change value) = (next value).map last) :
    (first.map change >>= follow) = (first >>= next).map last := by
  cases first with
  | error => rfl
  | ok value => exact each value

theorem Except.bind_of {first : Except ε α} {follow : α → Except ε γ} {next : α → Except ε δ} {last : δ → γ}
    (each : ∀ value, follow value = (next value).map last) : (first >>= follow) = (first >>= next).map last := by
  cases first with
  | error => rfl
  | ok value => exact each value

theorem Except.ite_of {condition : Prop} [Decidable condition] {first second : Except ε α} {follow next : Except ε β}
    {last : α → β} (yes : follow = first.map last) (no : next = second.map last) :
    (if condition then follow else next) = (if condition then first else second).map last := by
  split
  · exact yes
  · exact no

namespace Scheduler

/-- Another reason why control was last returned to the host. -/
def withEvent (scheduler : Scheduler) (event : Event) : Scheduler := { scheduler with event }

variable (scheduler : Scheduler) (event : Event)

theorem request_withEvent (transfer : Transfer) :
    (scheduler.withEvent event).request transfer = (scheduler.request transfer).map (·.withEvent event) :=
  Except.ite_of rfl (Except.ite_of rfl rfl)

theorem resume_withEvent (target : ThreadId) :
    (scheduler.withEvent event).resume target = (scheduler.resume target).map (·.withEvent event) := by
  rw [resume, request_withEvent]
  refine Except.map_bind_of fun asked => ?_
  exact Except.ite_of rfl rfl

theorem synchronizePoint_withEvent (id : ThreadId) : (scheduler.withEvent event).synchronizePoint id =
    (scheduler.synchronizePoint id).map fun result => (result.1, result.2.withEvent event) := by
  refine Except.ite_of rfl (Except.bind_of fun thread => Except.ite_of rfl ?_)
  have left := ((scheduler.modifyThread id Thread.park).clearDesynchronized).request_withEvent event
    (.leave (if scheduler.desynchronized then .desynchronized else .synchronized))
  change (Scheduler.request _ _ >>= fun _ => _) = _
  exact left ▸ Except.map_bind_of fun _ => rfl

theorem step_withEvent (id : ThreadId) (units : UInt32) : (scheduler.withEvent event).step id units =
    (scheduler.step id units).map fun result => (result.1, result.2.withEvent event) := by
  refine Except.ite_of (Except.bind_of fun _ => rfl) (Except.bind_of fun reference => Except.bind_of fun clock => ?_)
  exact Except.bind_of fun _ => rfl

end Scheduler

namespace Context

def withEvent (cx : Context) (event : Event) : Context := { cx with scheduler := cx.scheduler.withEvent event }

@[simp] theorem latch?_withEvent (cx : Context) (event : Event) (coprocessor : Nat) :
    (cx.withEvent event).latch? coprocessor = cx.latch? coprocessor := rfl

/-- What a call or a slice yields, in a context with another event. -/
def carry (event : Event) (result : α × Context) : α × Context := (result.1, result.2.withEvent event)

variable (cx : Context) (event : Event)

theorem step_withEvent (units : UInt32) : (cx.withEvent event).step units = (cx.step units).map (·.withEvent event) := by
  change (Scheduler.step (cx.scheduler.withEvent event) cx.thread units >>= _) = _
  rw [Scheduler.step_withEvent]
  exact Except.map_bind_of fun _ => rfl

theorem synchronizePoint_withEvent : (cx.withEvent event).synchronizePoint = cx.synchronizePoint.map (carry event) := by
  change (Scheduler.synchronizePoint (cx.scheduler.withEvent event) cx.thread >>= _) = _
  rw [Scheduler.synchronizePoint_withEvent]
  exact Except.map_bind_of fun _ => rfl

theorem resume_withEvent (target : ThreadId) :
    (cx.withEvent event).resume target = (cx.resume target).map (·.withEvent event) := by
  change (Scheduler.resume _ _ >>= _) = _
  rw [show (cx.withEvent event).scheduler = cx.scheduler.withEvent event from rfl, Scheduler.resume_withEvent]
  exact Except.map_bind_of fun _ => rfl

theorem leave_withEvent (last : Event) : (cx.withEvent event).leave last = (cx.leave last).map (·.withEvent event) := by
  change (Scheduler.request _ _ >>= _) = _
  rw [show (cx.withEvent event).scheduler = cx.scheduler.withEvent event from rfl, Scheduler.request_withEvent]
  exact Except.map_bind_of fun _ => rfl

/-- A call that may resume a thread at its end. -/
theorem resuming_withEvent (target : ThreadId) : (do return (true, ← (cx.withEvent event).resume target)) =
    (do return (true, ← cx.resume target) : Except Fault (Bool × Context)).map (carry event) := by
  rw [resume_withEvent]
  exact Except.map_bind_of fun _ => rfl

theorem synchronize_withEvent (other : ThreadId) :
    (cx.withEvent event).synchronize other = (cx.synchronize other).map (carry event) :=
  Except.ite_of rfl (Except.bind_of fun _ => Except.ite_of rfl (resuming_withEvent cx event other))

theorem synchronizeCpu_withEvent : (cx.withEvent event).synchronizeCpu = cx.synchronizeCpu.map (carry event) :=
  Except.ite_of rfl (Except.ite_of rfl (Except.bind_of fun _ => Except.ite_of rfl (resuming_withEvent cx event .cpu)))

theorem synchronizeAhead_withEvent (cycles : UInt32) :
    (cx.withEvent event).synchronizeAhead cycles = (cx.synchronizeAhead cycles).map (carry event) :=
  Except.ite_of rfl (Except.bind_of fun _ => Except.ite_of rfl (Except.bind_of fun _ => Except.bind_of fun _ =>
    Except.ite_of rfl (resuming_withEvent cx event .cpu)))

end Context

open Context

def Chip.Carries (χ : Type) [Chip χ] : Prop :=
  ∀ (chip : χ) (cx : Context) (event : Event), Chip.slice chip (cx.withEvent event) = (Chip.slice chip cx).map (carry event)

theorem Multiplier.carries : Chip.Carries Multiplier := by
  intro unit cx event
  simp only [Chip.slice, slice]
  cases unit.continuation with
  | idle =>
    rw [synchronizePoint_withEvent]
    refine Except.map_bind_of ?_
    rintro ⟨passed, after⟩
    refine Except.ite_of rfl ?_
    simp only [carry, latch?_withEvent]
    cases (after.latch? unit.index.toNat).filter (·.strobe) with
    | some latch => rfl
    | none =>
      simp only [step_withEvent]
      exact Except.map_bind_of fun _ => rfl
  | waited =>
    rw [synchronizeCpu_withEvent]
    exact Except.map_bind_of fun _ => rfl
  | busy remaining =>
    rw [step_withEvent]
    exact Except.map_bind_of fun _ => rfl
  | complete =>
    change (Context.synchronizeCpu (Context.withEvent { cx with bus := cx.bus.modifyCoprocessor unit.index.toNat fun latch =>
      { latch with output := result unit.operands } } event) >>= _) = _
    rw [synchronizeCpu_withEvent]
    exact Except.map_bind_of fun _ => rfl

theorem Rtc.carries : Chip.Carries Rtc := by
  intro clock cx event
  refine Except.ite_of ?_ ?_
  · rw [synchronizeCpu_withEvent]
    exact Except.map_bind_of fun _ => rfl
  · rw [synchronizePoint_withEvent]
    refine Except.map_bind_of ?_
    rintro ⟨passed, after⟩
    refine Except.ite_of rfl ?_
    simp only [step_withEvent]
    refine Except.map_bind_of fun stepped => Except.bind_of fun ticked => ?_
    rw [latch?_withEvent]
    cases stepped.latch? ticked.index.toNat <;> rfl

theorem Ppu.carries : Chip.Carries Ppu := by
  intro ppu cx event
  simp only [Chip.slice, slice]
  cases ppu.continuation with
  | idle =>
    rw [synchronizePoint_withEvent]
    refine Except.map_bind_of ?_
    rintro ⟨passed, after⟩
    cases passed <;> rfl
  | line dot =>
    simp only [render, step_withEvent]
    refine Except.map_bind_of fun stepped => ?_
    split
    · rfl
    · exact Except.bind_of fun _ => rfl
  | frame =>
    rw [leave_withEvent]
    exact Except.map_bind_of fun _ => rfl
  | endOfLine =>
    rw [synchronizeCpu_withEvent]
    exact Except.map_bind_of fun _ => rfl

theorem Smp.complete_withEvent (smp : Smp) (opcode : Opcode) (operand : UInt8) (cx : Context) (event : Event) :
    smp.complete opcode operand (cx.withEvent event) = (smp.complete opcode operand cx).map (carry event) := by
  refine Except.bind_of ?_
  rintro ⟨performed, bus⟩
  change (Context.synchronizeAhead (Context.withEvent { cx with bus } event) aheadUnits >>= _) = _
  rw [synchronizeAhead_withEvent]
  exact Except.map_bind_of fun _ => rfl

theorem Smp.carries : Chip.Carries Smp := by
  intro smp cx event
  simp only [Chip.slice, slice]
  cases smp.continuation with
  | idle =>
    rw [synchronizePoint_withEvent]
    refine Except.map_bind_of ?_
    rintro ⟨passed, after⟩
    cases passed <;> rfl
  | execute opcode operand cycles =>
    rw [step_withEvent]
    exact Except.map_bind_of fun _ => Except.bind_of fun _ => rfl
  | access opcode operand synchronized =>
    have completes := smp.complete_withEvent opcode operand cx event
    refine Except.ite_of completes ?_
    rw [synchronizeCpu_withEvent]
    refine Except.map_bind_of ?_
    rintro ⟨resumed, after⟩
    refine Except.ite_of rfl ?_
    exact smp.complete_withEvent opcode operand after event

theorem Coprocessor.carries : Chip.Carries Coprocessor := by
  intro chip cx event
  cases chip with
  | multiplier unit =>
    change (Chip.slice unit (cx.withEvent event) >>= _) = _
    rw [Multiplier.carries]
    exact Except.map_bind_of fun _ => rfl
  | rtc clock =>
    change (Chip.slice clock (cx.withEvent event) >>= _) = _
    rw [Rtc.carries]
    exact Except.map_bind_of fun _ => rfl

namespace Cpu

theorem catchUp_withEvent (cpu : Cpu) (next : UInt8) (remaining : List ThreadId) (cx : Context) (event : Event) :
    cpu.catchUp next remaining (cx.withEvent event) = (cpu.catchUp next remaining cx).map (carry event) := by
  induction remaining generalizing next cx with
  | nil => rfl
  | cons dependent rest ih =>
    refine Except.bind_of fun following => ?_
    rw [synchronize_withEvent]
    refine Except.map_bind_of ?_
    rintro ⟨resumed, after⟩
    exact Except.ite_of rfl (ih following after)

theorem carries : Chip.Carries Cpu := by
  intro cpu cx event
  simp only [Chip.slice, slice]
  cases cpu.continuation with
  | idle =>
    rw [synchronizePoint_withEvent]
    refine Except.map_bind_of ?_
    rintro ⟨passed, after⟩
    cases passed <;> rfl
  | execute opcode operand cycles =>
    rw [step_withEvent]
    exact Except.map_bind_of fun _ => Except.bind_of fun _ => rfl
  | access opcode operand synchronized =>
    simp only
    cases if synchronized then none else cpu.accessed opcode operand with
    | none => rfl
    | some other =>
      simp only [synchronize_withEvent]
      refine Except.map_bind_of ?_
      rintro ⟨resumed, after⟩
      exact Except.ite_of rfl rfl
  | catchup next => exact cpu.catchUp_withEvent next _ cx event

end Cpu

def ChipSet.Carries (σ : Type) [ChipSet σ] : Prop :=
  ∀ (id : ThreadId) (chips : σ) (scheduler : Scheduler) (event : Event),
    ChipSet.slice id chips (scheduler.withEvent event) =
      (ChipSet.slice id chips scheduler).map fun result => (result.1, result.2.1.withEvent event, result.2.2)

theorem Board.carries : ChipSet.Carries Board := by
  intro id board scheduler event
  obtain ⟨bus, cpu, smp, ppu, coprocessors, frame⟩ := board
  cases id with
  | cpu =>
    change (Chip.slice cpu (Context.withEvent ⟨bus, scheduler, .cpu, []⟩ event) >>= _) = _
    rw [Cpu.carries]
    exact Except.map_bind_of fun _ => rfl
  | smp =>
    change (Chip.slice smp (Context.withEvent ⟨bus, scheduler, .smp, []⟩ event) >>= _) = _
    rw [Smp.carries]
    exact Except.map_bind_of fun _ => rfl
  | ppu =>
    change (Chip.slice ppu (Context.withEvent ⟨bus, scheduler, .ppu, []⟩ event) >>= _) = _
    rw [Ppu.carries]
    exact Except.map_bind_of fun _ => rfl
  | coprocessor index =>
    cases found : coprocessors[index.toNat]? with
    | none =>
      simp only [ChipSet.slice, slice, Array.modifyM_none found]
      rfl
    | some chip =>
      simp only [ChipSet.slice, slice, Array.modifyM_apply found]
      change ((Chip.slice chip (Context.withEvent ⟨bus, scheduler, .coprocessor index, []⟩ event) >>= _) >>= _) = _
      rw [Coprocessor.carries, bind_assoc, bind_assoc]
      exact Except.map_bind_of fun _ => rfl

namespace Scheduler

variable [ChipSet σ] [Host ω]

theorem runSlices_withEvent (carries : ChipSet.Carries σ) (budget : Nat) (scheduler : Scheduler) (event : Event) (chips : σ) :
    (scheduler.withEvent event).runSlices budget chips = (scheduler.runSlices budget chips : Run ω (Scheduler × σ)) := by
  induction budget generalizing scheduler chips with
  | zero => rfl
  | succ budget ih =>
    rw [runSlices, runSlices]
    have sliced := carries scheduler.active chips scheduler event
    rw [show (scheduler.withEvent event).active = scheduler.active from rfl, sliced]
    cases ChipSet.slice scheduler.active chips scheduler with
    | error => rfl
    | ok result =>
      obtain ⟨moved, later, notices⟩ := result
      simp only [Except.map, Run.ofExcept_ok, pure_bind]
      refine bind_congr fun _ => ?_
      rw [show (later.withEvent event).transfer = later.transfer from rfl]
      cases later.transfer with
      | none => exact ih later moved
      | some transfer =>
        cases transfer with
        | resume target => exact bind_congr fun _ => ih (later.transferTo target) moved
        | leave last => rfl

/-- An entry does not depend on how the one before it ended. -/
theorem enter_withEvent (carries : ChipSet.Carries σ) (budget : Nat) (scheduler : Scheduler) (event : Event) (chips : σ) :
    (scheduler.withEvent event).enter budget chips = (scheduler.enter budget chips : Run ω (Scheduler × σ)) := by
  rw [enter, enter]
  refine ite_congr rfl (fun _ => rfl) fun _ => ite_congr rfl (fun _ => rfl) fun _ => ?_
  exact runSlices_withEvent carries budget { scheduler.transferTo scheduler.active with entered := true } event chips

end Scheduler

namespace Machine

/-- Another reason why control was last returned to the host. -/
def withEvent (machine : Machine) (event : Event) : Machine := ⟨machine.scheduler.withEvent event, machine.board⟩

theorem run_withEvent [Host ω] (budget : Nat) (cheats : List Cheat) (machine : Machine) (event : Event) :
    (machine.withEvent event).run budget cheats = (machine.run budget cheats : Run ω Machine) := by
  cases budget with
  | zero => rfl
  | succ rounds =>
    change run.rounds (rounds + 1) cheats (rounds + 1) (machine.withEvent event) = run.rounds (rounds + 1) cheats (rounds + 1) machine
    rw [run.rounds, run.rounds]
    exact congrArg (· >>= _) (Scheduler.enter_withEvent Board.carries (rounds + 1) machine.scheduler event machine.board)

end Machine

namespace Save

variable [ChipSet σ] [Host ω] {onFrame : σ → StateM ω σ} {budget : Nat}

theorem drive_withEvent (carries : ChipSet.Carries σ) (thread : ThreadId) (driving : Drive σ) (event : Event) :
    drive onFrame budget thread { driving with scheduler := driving.scheduler.withEvent event } = drive onFrame budget thread driving := by
  obtain ⟨scheduler, chips, report⟩ := driving
  simp only [drive]
  have set : (scheduler.withEvent event).setActive thread = (scheduler.setActive thread).map (·.withEvent event) :=
    Except.ite_of rfl (Except.ite_of rfl rfl)
  rw [set]
  cases scheduler.setActive thread with
  | error => rfl
  | ok scheduler =>
    simp only [Except.map, Run.ofExcept_ok, pure_bind]
    cases budget with
    | zero => rfl
    | succ rounds =>
      rw [enterUntilPoint, enterUntilPoint]
      exact congrArg (· >>= _) (Scheduler.enter_withEvent carries (rounds + 1) scheduler event chips)

omit [ChipSet σ] [Host ω] in
/-- Counting a pass comes before any drive of it. -/
theorem countPass_then (driving : Drive σ) (event : Event) {next : Drive σ → Run ω α}
    (each : ∀ passed : Drive σ, next { passed with scheduler := passed.scheduler.withEvent event } = next passed) :
    (countPass { driving with scheduler := driving.scheduler.withEvent event } >>= next) = (countPass driving >>= next) := by
  simp only [countPass, bind_assoc, pure_bind]
  exact bind_congr fun passes => each { driving with report := { driving.report with passes } }

theorem driveUndisturbed_withEvent (carries : ChipSet.Carries σ) (thread : ThreadId) (rounds : Nat) (driving : Drive σ)
    (event : Event) :
    driveUndisturbed onFrame budget thread rounds { driving with scheduler := driving.scheduler.withEvent event } =
      driveUndisturbed onFrame budget thread rounds driving := by
  cases rounds with
  | zero => rfl
  | succ rounds =>
    rw [driveUndisturbed, driveUndisturbed]
    exact congrArg (· >>= _) (drive_withEvent carries thread driving event)

theorem pass_withEvent (carries : ChipSet.Carries σ) (first : ThreadId) (rest : List ThreadId) (driving : Drive σ)
    (event : Event) : pass onFrame budget (first :: rest) { driving with scheduler := driving.scheduler.withEvent event } =
      pass onFrame budget (first :: rest) driving := by
  rw [pass, pass]
  exact congrArg (· >>= _) (drive_withEvent carries first driving event)

theorem strictOrder_eq_cons (scheduler : Scheduler) : ∃ first rest, strictOrder scheduler = first :: rest := by
  rw [strictOrder]
  split <;> exact ⟨_, _, rfl⟩

theorem settleAll_withEvent (carries : ChipSet.Carries σ) (method : SaveMethod) (driving : Drive σ) (event : Event) :
    settleAll onFrame budget method { driving with scheduler := driving.scheduler.withEvent event } =
      settleAll onFrame budget method driving := by
  cases method with
  | fast =>
    exact countPass_then driving event fun passed =>
      congrArg (· >>= _) (driveUndisturbed_withEvent carries .cpu budget passed event)
  | strict =>
    obtain ⟨first, rest, order⟩ := strictOrder_eq_cons driving.scheduler
    change strict onFrame budget (strictOrder driving.scheduler) budget _ = strict onFrame budget (strictOrder driving.scheduler) budget _
    rw [order]
    cases budget with
    | zero => rfl
    | succ rounds =>
      rw [strict, strict]
      exact countPass_then driving event fun passed => congrArg (· >>= _) (pass_withEvent carries first rest passed event)

/-- A drive to a save does not depend on how the last run ended. -/
theorem runToSave_withEvent (carries : ChipSet.Carries σ) (method : SaveMethod) (scheduler : Scheduler) (event : Event)
    (chips : σ) : runToSave onFrame budget method (scheduler.withEvent event) chips =
      runToSave onFrame budget method scheduler chips := by
  cases outside : scheduler.entered with
  | true =>
    rw [runToSave, runToSave, Scheduler.setMode, Scheduler.setMode, if_pos (by exact outside), if_pos (by exact outside)]
  | false =>
    rw [runToSave_eq outside, runToSave_eq (show (scheduler.withEvent event).entered = false from outside)]
    exact congrArg (· >>= _) (settleAll_withEvent carries method ⟨steered scheduler, chips, SaveReport.zero⟩ event)

end Save
namespace Scheduler

/-- A snapshot does not hold the last event. -/
theorem serializeThread_withEvent (scheduler : Scheduler) (event : Event) (id : ThreadId) :
    (scheduler.withEvent event).serializeThread id = (·.withEvent event) <$> scheduler.serializeThread id := by
  rw [serializeThread, serializeThread, show (scheduler.withEvent event).thread? id = scheduler.thread? id from rfl]
  cases scheduler.thread? id with
  | none => rfl
  | some thread =>
    simp only [map_bind, map_pure]
    rfl

theorem serializeStack_withEvent (scheduler : Scheduler) (event : Event) :
    (scheduler.withEvent event).serializeStack = (·.withEvent event) <$> scheduler.serializeStack := by
  simp only [serializeStack, map_bind]
  refine bind_congr fun active => bind_congr fun flag => bind_congr fun threads => ?_
  split <;> simp only [map_pure, map_bind] <;> rfl

end Scheduler

theorem foldlM_carried [Monad m] [LawfulMonad m] {visit : β → ι → m β} {change : β → β}
    (each : ∀ state item, visit (change state) item = change <$> visit state item) (items : List ι) (state : β) :
    items.foldlM visit (change state) = change <$> items.foldlM visit state := by
  induction items generalizing state with
  | nil => simp
  | cons item items ih =>
    rw [List.foldlM_cons, List.foldlM_cons, each, map_bind, bind_map_left]
    exact bind_congr fun later => ih later

namespace Machine

theorem serialize_withEvent (machine : Machine) (event : Event) (portable : Bool) :
    (machine.withEvent event).serialize portable = (·.withEvent event) <$> machine.serialize portable := by
  obtain ⟨scheduler, bus, cpu, smp, ppu, coprocessors, frame⟩ := machine
  have each : ∀ (machine : Machine) id, serializeThread (!portable) (machine.withEvent event) id =
      (·.withEvent event) <$> serializeThread (!portable) machine id := by
    intro machine id
    obtain ⟨scheduler, board⟩ := machine
    simp only [serializeThread, withEvent, Scheduler.serializeThread_withEvent, bind_map_left, map_bind, map_pure]
  simp only [withEvent, serialize, map_bind]
  refine bind_congr fun frame => bind_congr fun bus => ?_
  rw [show (⟨scheduler.withEvent event, ⟨bus, cpu, smp, ppu, coprocessors, frame⟩⟩ : Machine) =
    withEvent ⟨scheduler, ⟨bus, cpu, smp, ppu, coprocessors, frame⟩⟩ event from rfl, foldlM_carried each, bind_map_left]
  refine bind_congr fun later => ?_
  cases portable with
  | true => rfl
  | false =>
    simp only [withEvent, Scheduler.serializeStack_withEvent, bind_map_left]
    rfl

end Machine
end MultiClock
