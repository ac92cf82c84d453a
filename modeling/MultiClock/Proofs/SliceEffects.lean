import MultiClock.Proofs.AtomicInstructions
import MultiClock.Proofs.DependentTurns
import MultiClock.Proofs.UnitsOfWork

/-! What a slice of a dependent makes of its registers and of the bus, said once for each chip. In which slices the scheduler is called,
and what for, is the action that comes with it. -/

namespace MultiClock

/-- A point at which the reference may catch up, and where nothing else happens. -/
def Action.Yields (action : Action) : Prop := action = .rest ∨ action = .resume .cpu

theorem Action.Yields.timeless {action : Action} (yields : action.Yields) : action.units = 0 := by
  rcases yields with rfl | rfl <;> rfl

theorem Bus.coprocessors_modifyCoprocessor (bus : Bus) (index position : Nat) (change : Latch → Latch) :
    (bus.modifyCoprocessor index change).coprocessors[position]? =
      if index = position then bus.coprocessors[position]?.map change else bus.coprocessors[position]? := by
  rw [modifyCoprocessor, Array.getElem?_modify]

theorem Scheduler.Defers.yields {scheduler : Scheduler} {id : ThreadId} {limit : Int} {action : Action}
    (defers : scheduler.Defers id limit action) : action.Yields := by
  cases defers with
  | rest => exact .inl rfl
  | resume => exact .inr rfl

namespace Context
variable {cx after : Context}

/-- Surroundings in which a dependent may do a slice. -/
structure Suits (cx : Context) : Prop where
  ready : cx.Ready
  dependent : cx.thread ≠ .cpu
  calm : cx.Calm

/-- In normal execution no chip stops at its synchronization point. -/
theorem Does.not_run (does : cx.Does .stop after) : cx.scheduler.mode ≠ .run := by
  intro normal
  cases does.scheduler with
  | stop point =>
    obtain ⟨_, _, stays, _⟩ := Scheduler.stopped_of_point point
    exact stays (.inr (.inl normal))

/-- The reference is resumed, or nothing happens at all. -/
theorem HandsOver.yields {limit : Int} {result : Bool × Context} (hands : cx.HandsOver limit result) :
    ∃ action : Action, action.Yields ∧ cx.Does action result.2 := by
  obtain ⟨action, does, defers⟩ := hands.defers
  exact ⟨action, defers.yields, does⟩

theorem synchronizeCpu_yields (cx : Context) :
    Meets (fun _ => True) (fun result => result.2.bus = cx.bus ∧ ∃ action : Action, action.Yields ∧ cx.Does action result.2)
      cx.synchronizeCpu := by
  refine (((@synchronizeCpu_handsOver True cx).permit fun _ _ => trivial).returned).mono ?_
  intro result called
  obtain ⟨called, hands⟩ := called
  exact ⟨bus_synchronizeCpu called, hands.yields⟩

theorem synchronizePoint_passes (cx : Context) :
    Meets (fun _ => True) (fun result => result.2.bus = cx.bus ∧ cx.Does (if result.1 then .pass else .stop) result.2)
      cx.synchronizePoint := by
  refine (((@synchronizePoint_does True cx).permit fun _ _ => trivial).returned).mono ?_
  intro result called
  obtain ⟨called, does⟩ := called
  exact ⟨bus_synchronizePoint called, does⟩

theorem step_spends (cx : Context) (units : UInt32) :
    Meets (fun _ => True) (fun after => after.bus = cx.bus ∧ cx.Does (.step units) after) (cx.step units) := by
  refine (((cx.step_does units).permit fun _ _ => trivial).returned).mono ?_
  intro after called
  obtain ⟨called, does⟩ := called
  exact ⟨bus_step called, does⟩

end Context

namespace Smp

/-- An instruction leaves the bus alone or writes one port to the reference. -/
inductive Speaks (bus : Bus) : Bus → Prop
  | silent : Speaks bus bus
  | port (number : Nat) (value : UInt8) : Speaks bus { bus with apu := bus.apu.writeOutput number value }

theorem effect_speaks (smp : Smp) (opcode : Opcode) (operand : UInt8) (bus : Bus) : Speaks bus (smp.effect opcode operand bus).2 := by
  cases opcode with
  | portWrite => exact .port _ _
  | mix | portRead | store => exact .silent

theorem Moves.speaks {cx : Context} {before after : Smp} {bus : Bus} {action : Action} (moves : before.Moves cx after bus action) :
    Speaks cx.bus bus := by
  cases moves with
  | stop | pass | step | ask => exact .silent
  | complete opcode operand synchronized accessing behind performs =>
    have written : (before.effect opcode operand cx.bus).2 = bus :=
      congrArg Prod.snd (Except.ok.inj ((before.perform_eq opcode operand cx.bus).symm.trans performs))
    exact written ▸ before.effect_speaks opcode operand cx.bus

theorem slice_speaks (smp : Smp) (cx : Context) :
    Meets (fun _ => True) (fun result => Speaks cx.bus result.2.bus) (Chip.slice smp cx) := by
  refine ((smp.slice_moves cx).permit fun _ _ => trivial).mono ?_
  rintro result ⟨action, _, moves⟩
  exact moves.speaks

end Smp

namespace Ppu

theorem slice_looks (ppu : Ppu) (cx : Context) :
    Meets (fun _ => True) (fun result => result.2.bus = cx.bus) (Chip.slice ppu cx) :=
  ((ppu.slice_moves cx).permit fun _ _ => trivial).mono fun _ called => called.1

end Ppu

namespace Multiplier

/-- How a slice gets on with a command, and what becomes of the bus. -/
inductive Proceeds (bus : Bus) (before : Multiplier) : Multiplier → Bus → Action → Prop
  | stop (idle : before.continuation = .idle) : Proceeds bus before before bus .stop
  | take (idle : before.continuation = .idle) (command : Latch) (pending : before.pending? bus = some command) :
      Proceeds bus before { before with operands := command.input, continuation := .busy latency }
        (bus.modifyCoprocessor before.index.toNat taken) .pass
  | wait (idle : before.continuation = .idle) (quiet : before.pending? bus = none) :
      Proceeds bus before { before with continuation := .waited } bus (.passStep idleCycles)
  | caughtUp (waited : before.continuation = .waited) {action : Action} (yields : action.Yields) :
      Proceeds bus before { before with continuation := .idle } bus action
  | step (remaining : UInt8) (working : before.continuation = .busy remaining) :
      Proceeds bus before { before with continuation := if 1 < remaining then .busy (remaining - 1) else .complete } bus (.step 1)
  | complete (due : before.continuation = .complete) {action : Action} (yields : action.Yields) :
      Proceeds bus before { before with operations := before.operations + 1, continuation := .idle }
        (bus.modifyCoprocessor before.index.toNat fun latch => { latch with output := result before.operands }) action

theorem slice_returns {cx : Context} (unit : Multiplier) (suits : cx.Suits) : ∃ result, Chip.slice unit cx = .ok result := by
  obtain ⟨result, happens, _⟩ := (slice_turns unit.index unit cx).exists_ok fun fault excused =>
    (excused.2 ⟨suits.ready, suits.dependent, rfl⟩).2 suits.calm
  exact ⟨result, happens⟩

theorem slice_proceeds (unit : Multiplier) (cx : Context) :
    Meets (fun _ => True) (fun result => ∃ action, cx.Does action result.2 ∧ unit.Proceeds cx.bus result.1 result.2.bus action)
      (Chip.slice unit cx) := by
  simp only [Chip.slice, slice]
  cases at_work : unit.continuation with
  | idle =>
    refine cx.synchronizePoint_passes.bind ?_
    intro result point
    obtain ⟨passes, after⟩ := result
    obtain ⟨same, does⟩ := point
    cases passes with
    | false => exact .pure ⟨_, does, same ▸ .stop at_work⟩
    | true =>
      have same : after.bus = cx.bus := same
      simp only [Context.latch?, same, Bool.not_true, Bool.false_eq_true, if_false]
      split
      next latch pending =>
        have does : cx.Does .pass (after.report (.command unit.index latch.input)) := Context.Does.report does (by simp)
        refine .pure ⟨.pass, does.withBus (by simp [Context.report, same]), ?_⟩
        simp only [Context.report, same]
        exact .take at_work latch pending
      next quiet =>
        refine (after.step_spends idleCycles).bind ?_
        intro last called
        obtain ⟨kept, stepped⟩ := called
        refine .pure ⟨_, does.step_after_pass stepped, ?_⟩
        simp only [kept, same]
        exact .wait at_work quiet
  | waited =>
    refine cx.synchronizeCpu_yields.bind ?_
    intro result called
    obtain ⟨same, action, yields, does⟩ := called
    exact .pure ⟨action, does, same ▸ .caughtUp at_work yields⟩
  | busy remaining =>
    refine (cx.step_spends 1).bind ?_
    intro after called
    obtain ⟨same, does⟩ := called
    exact .pure ⟨_, does, same ▸ .step remaining at_work⟩
  | complete =>
    let bus := cx.bus.modifyCoprocessor unit.index.toNat fun latch => { latch with output := result unit.operands }
    have latches : bus.coprocessors.size = cx.bus.coprocessors.size := Bus.size_modifyCoprocessor _ _ _
    refine (Context.synchronizeCpu_yields { cx with bus }).bind ?_
    intro result called
    obtain ⟨same, action, yields, does⟩ := called
    refine .pure ⟨action, does.afterBus latches, ?_⟩
    simp only [same]
    exact .complete at_work yields

end Multiplier

namespace Rtc

/-- How a slice gets on with a tick, and what becomes of the bus. -/
inductive Proceeds (bus : Bus) (before : Rtc) : Rtc → Bus → Action → Prop
  | stop (idle : before.ticked = false) : Proceeds bus before before bus .stop
  | tick (idle : before.ticked = false) (countable : before.ticks.toNat + 1 < 2 ^ 16) :
      Proceeds bus before { (before.work bus).1 with ticked := true } (before.work bus).2 (.passStep 1)
  | caughtUp (ticked : before.ticked = true) {action : Action} (yields : action.Yields) :
      Proceeds bus before { before with ticked := false } bus action

theorem slice_returns {cx : Context} {clock : Rtc} {index : UInt8} (fits : clock.Fits index) (suits : cx.Suits) :
    ∃ result, Chip.slice clock cx = .ok result := by
  obtain ⟨result, happens, _⟩ := (slice_turns index clock cx).exists_ok fun fault excused =>
    (excused.2 ⟨suits.ready, suits.dependent, fits⟩).2 suits.calm
  exact ⟨result, happens⟩

theorem tick_counts (clock : Rtc) :
    Meets (fun _ => True) (fun later => clock.ticks.toNat + 1 < 2 ^ 16 ∧ later = clock.advanced) clock.tick := by
  by_cases countable : clock.ticks.toNat + 1 < 2 ^ 16
  · rw [tick_eq countable]
    exact .pure ⟨countable, rfl⟩
  · refine ((Checked.add16_meets clock.ticks 1).permit fun _ _ => trivial).bind fun ticks sum => ?_
    have within := ticks.toNat_lt
    exact absurd (sum ▸ within) countable

theorem slice_proceeds (clock : Rtc) (cx : Context) :
    Meets (fun _ => True) (fun result => ∃ action, cx.Does action result.2 ∧ clock.Proceeds cx.bus result.1 result.2.bus action)
      (Chip.slice clock cx) := by
  simp only [Chip.slice, slice]
  cases at_work : clock.ticked with
  | true =>
    refine cx.synchronizeCpu_yields.bind ?_
    intro result called
    obtain ⟨same, action, yields, does⟩ := called
    exact .pure ⟨action, does, same ▸ .caughtUp at_work yields⟩
  | false =>
    simp only [Bool.false_eq_true, if_false]
    refine cx.synchronizePoint_passes.bind ?_
    intro result point
    obtain ⟨passes, after⟩ := result
    obtain ⟨same, does⟩ := point
    cases passes with
    | false => exact .pure ⟨_, does, same ▸ .stop at_work⟩
    | true =>
      simp only [Bool.not_true, Bool.false_eq_true, if_false]
      refine (after.step_spends 1).bind ?_
      intro last called
      obtain ⟨kept, stepped⟩ := called
      refine clock.tick_counts.bind ?_
      intro counted called
      obtain ⟨countable, advances⟩ := called
      have ticks := @Proceeds.tick cx.bus clock at_work countable
      have same : last.bus = cx.bus := kept.trans same
      cases advances
      simp only [work] at ticks
      simp only [Context.latch?, same, index_advanced]
      split
      next missing =>
        simp only [missing, index_advanced] at ticks
        exact .pure ⟨_, does.step_after_pass stepped, same.symm ▸ ticks⟩
      next latch found =>
        simp only [found, obey_index, index_advanced] at ticks
        simp only [obey_index, index_advanced]
        exact .pure ⟨_, (does.step_after_pass stepped).withBus (by simp [same]), ticks⟩

end Rtc
end MultiClock
