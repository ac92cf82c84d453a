import MultiClock.Proofs.Watching

/-! In which order two chips touch the ports between them. Both sides compare clocks once before an access and do not ask
again afterwards, so the answer has to last until the access happens. -/

namespace MultiClock

variable {loads : Loads} {kinds : List CoprocessorKind} {slack : Nat}

namespace Cpu

theorem accessed_congr {first second : Cpu} (same : second.coprocessors = first.coprocessors) (opcode : Opcode) (operand : UInt8) :
    second.accessed opcode operand = first.accessed opcode operand := by
  simp only [accessed, selected, same]

theorem accessed_dependent {cpu : Cpu} {opcode : Opcode} {operand : UInt8} {other : ThreadId}
    (accessed : cpu.accessed opcode operand = some other) : other ≠ .cpu :=
  (index_of_dependent (accessed_mem accessed)).1

end Cpu

namespace Smp

variable {cx : Context} {before after : Smp} {bus : Bus} {action : Action} {opcode : Opcode} {operand : UInt8}

theorem Moves.asked (moves : before.Moves cx after bus action) (waiting : after.continuation = .access opcode operand true) :
    action = .resume .cpu := by
  cases moves with
  | ask => rfl
  | stop idle => cases idle.symm.trans waiting
  | step =>
    simp only at waiting
    split at waiting <;> simp at waiting
  | pass | complete => cases waiting

theorem Moves.behind (moves : before.Moves cx after bus action) (waiting : before.continuation = .access opcode operand false)
    (ports : opcode.accessesPorts = true) (unasked : after.continuation ≠ .access opcode operand true)
    (normal : cx.scheduler.mode = .run) : cx.scheduler.time cx.thread < 0 := by
  cases moves with
  | stop idle | pass idle => cases idle.symm.trans waiting
  | step _ _ _ executing => cases executing.symm.trans waiting
  | ask _ _ accessing =>
    cases accessing.symm.trans waiting
    exact absurd rfl unasked
  | complete _ _ _ accessing behind =>
    cases accessing.symm.trans waiting
    exact behind rfl ports normal

/-- The audio processor remembers that it asked only while the reference has control. Without asking it touches the ports
only if it is behind. -/
theorem slice_ports (smp : Smp) (cx : Context) :
    Meets (fun _ => True) (fun result =>
      (∀ opcode operand, result.1.continuation = .access opcode operand true → result.2.scheduler.transfer = some (.resume .cpu)) ∧
      ∀ opcode operand, smp.continuation = .access opcode operand false → opcode.accessesPorts = true →
        result.1.continuation ≠ .access opcode operand true → cx.scheduler.mode = .run → cx.scheduler.time cx.thread < 0)
      (Chip.slice smp cx) := by
  refine ((smp.slice_moves cx).permit fun _ _ => trivial).mono ?_
  rintro result ⟨action, does, moves⟩
  refine ⟨fun opcode operand waiting => ?_, fun opcode operand => moves.behind⟩
  cases moves.asked waiting
  cases does.scheduler with
  | resume resumed =>
    obtain ⟨_, _, _, same⟩ := Scheduler.resume_eq_ok.mp resumed
    exact congrArg Scheduler.transfer same

end Smp

theorem Board.slice_ports (board : Board) (scheduler : Scheduler) :
    Meets (fun _ => True) (fun result =>
      (∀ opcode operand, result.1.smp.continuation = .access opcode operand true → result.2.1.transfer = some (.resume .cpu)) ∧
      ∀ opcode operand, board.smp.continuation = .access opcode operand false → opcode.accessesPorts = true →
        result.1.smp.continuation ≠ .access opcode operand true → scheduler.mode = .run → scheduler.time .smp < 0)
      (board.slice .smp scheduler) :=
  (board.smp.slice_ports ⟨board.bus, scheduler, .smp, []⟩).bind fun _ ports => .pure ports

namespace Machine

/-- Whoever asked before an access may still count on the answer. -/
structure Punctual (machine : Machine) : Prop where
  reference : ∀ opcode operand other, machine.board.cpu.continuation = .access opcode operand true →
    machine.board.cpu.accessed opcode operand = some other → machine.scheduler.active = other ∨ 0 ≤ machine.scheduler.time other
  audio : machine.scheduler.active = .smp → ∀ opcode operand, machine.board.smp.continuation = .access opcode operand true →
    machine.scheduler.time .smp < 0

variable {before after : Machine} {action : Action}

/-- What the reference was told stays true: a chip that it has let catch up gives control back only when it is not behind. -/
theorem Punctual.reference_turn (punctual : before.Punctual) (took : Took before after action) (acts : Acts kinds before after action)
    (opcode : Cpu.Opcode) (operand : UInt8) (other : ThreadId) (waiting : after.board.cpu.continuation = .access opcode operand true)
    (accessed : after.board.cpu.accessed opcode operand = some other) :
    after.scheduler.active = other ∨ 0 ≤ after.scheduler.time other := by
  -- The reference waits from the slice that asks. Then the chip has control, until it is level and hands it back.
  cases acts with
  | reference active moves same works =>
    rw [Cpu.accessed_congr same] at accessed
    cases moves with
    | stop idle same =>
      rw [same, idle] at waiting
      cases waiting
    | pass _ _ _ busy | call _ _ _ _ _ _ _ _ _ busy | caughtUp _ _ busy => cases busy.symm.trans waiting
    | step _ _ _ _ spent =>
      rw [spent] at waiting
      split at waiting <;> simp at waiting
    | complete _ _ _ _ completed => rcases completed with ⟨busy, _⟩ | ⟨busy, _⟩ <;> cases busy.symm.trans waiting
    | ask _ _ target _ touched _ asked =>
      cases asked.symm.trans waiting
      cases touched.symm.trans accessed
      exact .inl took.active
  | dependent actor advances cpu others =>
    rw [cpu] at waiting accessed
    rw [took.active]
    rcases punctual.reference opcode operand other waiting accessed with same | level
    · subst same
      cases advances with
      | resume _ level =>
        right
        rw [took.acted.own actor]
        simpa [Action.units] using level
      | rest | step | stop | pass | passStep | frame => exact .inl rfl
    · by_cases same : other = before.scheduler.active
      · subst same
        right
        rw [took.acted.own actor]
        exact Int.add_nonneg level (Int.natCast_nonneg _)
      · rw [took.acted.others actor other same]
        exact .inr level

/-- The audio processor gets control back only when it is behind. -/
theorem Punctual.audio_turn (took : Took before after action) (acts : Acts kinds before after action) {notices : List Notice}
    (turn : Turn before notices after) (active : after.scheduler.active = .smp) (opcode : Smp.Opcode) (operand : UInt8)
    (waiting : after.board.smp.continuation = .access opcode operand true) : after.scheduler.time .smp < 0 := by
  obtain ⟨middle, sliced⟩ := turn.sliced
  rw [took.active] at active
  cases acts with
  | reference reference moves same works =>
    cases moves with
    | stop | pass | step | complete | caughtUp => cases reference.symm.trans active
    | ask _ _ _ _ _ behind | call _ _ _ _ _ _ _ _ behind =>
      cases active
      rw [took.acted.dependents reference .smp (by simp)]
      simpa [Action.units] using behind
  | dependent actor advances cpu others =>
    by_cases own : before.scheduler.active = .smp
    · rw [own] at sliced
      have asked := ((Board.slice_ports _ _).of_ok sliced).1 opcode operand waiting
      cases turn with
      | stays alike free =>
        rw [own] at alike
        cases sliced.symm.trans alike
        cases asked.symm.trans free
      | resumes alike resumed =>
        rw [own] at alike
        cases sliced.symm.trans alike
        cases asked.symm.trans resumed
        rw [← took.active] at active
        cases active
      | leaves alike left =>
        rw [own] at alike
        cases sliced.symm.trans alike
        cases asked.symm.trans left
    · cases advances with
      | resume => cases active
      | rest | step | stop | pass | passStep | frame => exact absurd active own

theorem Punctual.turn (punctual : before.Punctual) (took : Took before after action) (acts : Acts kinds before after action)
    {notices : List Notice} (turn : Turn before notices after) : after.Punctual :=
  ⟨punctual.reference_turn took acts, Punctual.audio_turn took acts turn⟩

end Machine

namespace Moment

/-- The reference executes an instruction in this slice: the cycles are spent, and nobody has to catch up first. -/
structure ReferenceExecutes (moment : Moment) (opcode : Cpu.Opcode) (operand : UInt8) : Prop where
  active : moment.before.scheduler.active = .cpu
  spent : ∃ synchronized, moment.before.board.cpu.continuation = .access opcode operand synchronized
  done : moment.after.board.cpu.continuation ≠ .access opcode operand true

/-- The audio processor executes an instruction in this slice. -/
structure AudioExecutes (moment : Moment) (opcode : Smp.Opcode) (operand : UInt8) : Prop where
  active : moment.before.scheduler.active = .smp
  spent : ∃ synchronized, moment.before.board.smp.continuation = .access opcode operand synchronized
  done : moment.after.board.smp.continuation ≠ .access opcode operand true

/-- The reference reads or writes the audio ports in this slice. -/
def ReferenceTouches (moment : Moment) : Prop :=
  ∃ operand, moment.ReferenceExecutes .apuWrite operand ∨ moment.ReferenceExecutes .apuRead operand

/-- The audio processor reads or writes its ports in this slice. -/
def AudioTouches (moment : Moment) : Prop :=
  ∃ operand, moment.AudioExecutes .portRead operand ∨ moment.AudioExecutes .portWrite operand

end Moment

/-- What holds in front of a slice, given the slices before it. -/
structure Timely (kinds : List CoprocessorKind) (earlier : List Moment) (moment : Moment) : Prop where
  running : moment.before.Running 0 .own kinds
  inside : moment.before.Inside
  clock : ∀ id, id ≠ .cpu → moment.before.scheduler.time id =
    elapsed id earlier * second - elapsed .cpu earlier * moment.before.scheduler.rate id
  level : ∀ opcode operand other, moment.ReferenceExecutes opcode operand →
    moment.before.board.cpu.accessed opcode operand = some other → 0 ≤ moment.before.scheduler.time other
  behind : ∀ opcode operand, moment.AudioExecutes opcode operand → opcode.accessesPorts = true → moment.before.scheduler.time .smp < 0

/-- A machine that is watched from power-on. -/
structure Recorded (kinds : List CoprocessorKind) (scheduler : Scheduler) (watched : Watched) : Prop where
  punctual : Machine.Punctual ⟨scheduler, watched.board⟩
  clock : ∀ id, id ≠ .cpu → scheduler.time id =
    elapsed id watched.history * second - elapsed .cpu watched.history * scheduler.rate id
  past : Always (Timely kinds) watched.history

namespace Machine

/-- A clock is the difference of what was stepped on both sides. -/
theorem Took.clock {before after : Machine} {action : Action} (took : Took before after action)
    (wired : before.scheduler.shape = wiring kinds) {notices : List Notice}
    (units : ∀ id, unitsOf id notices = if id = before.scheduler.active then action.units else 0) {id : ThreadId}
    (dependent : id ≠ .cpu) : after.scheduler.time id =
      before.scheduler.time id + unitsOf id notices * second - unitsOf .cpu notices * before.scheduler.rate id := by
  rw [units, units]
  by_cases reference : before.scheduler.active = .cpu
  · rw [took.acted.dependents reference id dependent, reference, if_neg dependent, if_pos rfl]
    push_cast
    omega
  · rw [if_neg (Ne.symm reference)]
    by_cases own : id = before.scheduler.active
    · subst own
      rw [took.acted.own reference, if_pos rfl, Scheduler.reference_rate wired]
      push_cast
      omega
    · rw [took.acted.others reference id own, if_neg own]
      simp

/-- When the reference executes an instruction, the chip whose ports it touches is not behind. -/
theorem Punctual.level {moment : Moment} {after : Machine} {action : Action} (punctual : moment.before.Punctual)
    (acts : Acts kinds moment.before after action) (same : after.board = moment.after.board) {opcode : Cpu.Opcode} {operand : UInt8}
    {other : ThreadId} (executes : moment.ReferenceExecutes opcode operand)
    (accessed : moment.before.board.cpu.accessed opcode operand = some other) : 0 ≤ moment.before.scheduler.time other := by
  obtain ⟨active, ⟨synchronized, spent⟩, done⟩ := executes
  rw [← same] at done
  cases acts with
  | dependent actor => exact absurd active actor
  | reference _ moves =>
    cases moves with
    | stop busy | pass busy | step _ _ _ busy | call _ _ _ _ _ busy | caughtUp _ busy => cases spent.symm.trans busy
    | ask _ _ _ busy _ _ asked =>
      cases spent.symm.trans busy
      exact absurd asked done
    | complete _ _ _ busy _ level =>
      cases spent.symm.trans busy
      cases synchronized with
      | false => exact level rfl other accessed
      | true =>
        rcases punctual.reference opcode operand other spent accessed with target | level
        · exact absurd (target.symm.trans active) (Cpu.accessed_dependent accessed)
        · exact level

/-- When the audio processor executes an instruction that touches the ports, it is behind. -/
theorem Punctual.behind {moment : Moment} {scheduler : Scheduler} (punctual : moment.before.Punctual)
    (sliced : ChipSet.slice moment.before.scheduler.active moment.before.board moment.before.scheduler =
      .ok (moment.after.board, scheduler, moment.notices))
    (normal : moment.before.scheduler.mode = .run) {opcode : Smp.Opcode} {operand : UInt8}
    (executes : moment.AudioExecutes opcode operand) (ports : opcode.accessesPorts = true) :
    moment.before.scheduler.time .smp < 0 := by
  obtain ⟨active, ⟨synchronized, spent⟩, done⟩ := executes
  cases synchronized with
  | true => exact punctual.audio active opcode operand spent
  | false =>
    rw [active] at sliced
    exact ((Board.slice_ports _ _).of_ok sliced).2 opcode operand spent ports done normal

end Machine

namespace Recorded

theorem upkeep [Host ω] (kinds : List CoprocessorKind) (cheats : List Cheat) :
    Machine.Upkeep (ω := ω) 0 .own kinds Watched.board (Watched.completeFrame cheats) (Recorded kinds) where
  turn := by
    intro scheduler watched running ready recorded action later moved middle notices sliced
    obtain ⟨sliced, turn, took, units, sound⟩ := sliced
    have wired := running.sound.wired
    have acts := took.acts running.sound ready
    have history := Watched.history_of_slice sliced
    refine ⟨recorded.punctual.turn took acts turn, fun id dependent => ?_, ?_⟩
    · have rate : later.rate id = scheduler.rate id := Scheduler.rate_of_shape took.acted.shape id
      have clock : later.time id = scheduler.time id + _ - _ := took.clock wired units dependent
      rw [clock, recorded.clock id dependent, rate, history, elapsed_append, elapsed_append]
      simp only [elapsed, List.map_cons, List.map_nil, List.sum_cons, List.sum_nil, Nat.add_zero]
      push_cast
      linarith
    · rw [history]
      refine recorded.past.snoc ⟨running, ready, recorded.clock, ?_, ?_⟩
      · intro opcode operand other executes accessed
        exact @Machine.Punctual.level kinds ⟨⟨scheduler, watched.board⟩, ⟨middle, moved.board⟩, notices⟩ ⟨later, moved.board⟩ action
          recorded.punctual acts rfl opcode operand other executes accessed
      · intro opcode operand executes ports
        have shown : ChipSet.slice scheduler.active watched.board scheduler = .ok (moved.board, middle, notices) := by
          rw [Watched.wraps, sliced]
          rfl
        exact Machine.Punctual.behind recorded.punctual shown running.mode executes ports
  enter := by
    intro scheduler watched recorded
    have times := scheduler.time_transferTo scheduler.active
    have rates := Scheduler.rate_of_shape (scheduler.shape_transferTo scheduler.active)
    refine ⟨⟨fun opcode operand other waiting accessed => ?_, fun active opcode operand waiting => ?_⟩, fun id dependent => ?_, recorded.past⟩
    · exact (times other) ▸ recorded.punctual.reference opcode operand other waiting accessed
    · exact (times .smp) ▸ recorded.punctual.audio active opcode operand waiting
    · have clock := recorded.clock id dependent
      rw [← times id, ← rates id] at clock
      exact clock
  frame := by
    intro scheduler watched host recorded
    exact ⟨⟨recorded.punctual.reference, recorded.punctual.audio⟩, recorded.clock, recorded.past⟩
  board := ⟨cheats, fun _ _ => rfl⟩

theorem fresh {machine : Machine} (fresh : machine.Fresh kinds) : Recorded kinds machine.scheduler ⟨machine.board, []⟩ := by
  have idle : machine.board.cpu.continuation = .idle := fresh.rested .cpu
  refine ⟨⟨fun opcode operand other waiting => ?_, fun active => ?_⟩, fun id _ => ?_, Always.nil⟩
  · cases idle.symm.trans waiting
  · cases fresh.active.symm.trans active
  · rw [fresh.level]
    simp [elapsed]

end Recorded

namespace Timely

variable {earlier : List Moment} {moment : Moment}

theorem reference_level (timely : Timely kinds earlier moment) (touches : moment.ReferenceTouches) :
    0 ≤ moment.before.scheduler.time .smp := by
  obtain ⟨operand, executes | executes⟩ := touches
  · exact timely.level .apuWrite operand .smp executes rfl
  · exact timely.level .apuRead operand .smp executes rfl

theorem audio_behind (timely : Timely kinds earlier moment) (touches : moment.AudioTouches) :
    moment.before.scheduler.time .smp < 0 := by
  obtain ⟨operand, executes | executes⟩ := touches
  · exact timely.behind .portRead operand executes rfl
  · exact timely.behind .portWrite operand executes rfl

theorem audio_clock (timely : Timely kinds earlier moment) : moment.before.scheduler.time .smp =
    (elapsed .smp earlier * Clock.cpuFrequency.toNat : Nat) - (elapsed .cpu earlier * Clock.smpFrequency.toNat : Nat) := by
  rw [timely.clock .smp (by simp), Scheduler.audio_rate timely.running.sound.wired]
  push_cast
  rfl

/-- Nobody touches the ports for both sides. -/
theorem touches_apart (reference : moment.ReferenceTouches) (audio : moment.AudioTouches) : False := by
  obtain ⟨_, executes | executes⟩ := reference
  all_goals
    obtain ⟨_, plays | plays⟩ := audio
    all_goals
      have active := executes.active
      rw [plays.active] at active
      cases active

end Timely

/-- Two slices of a history are the same one, or one of them is the earlier one. -/
theorem history_order {history first second firstLater secondLater : List Moment} {one other : Moment}
    (here : history = first ++ one :: firstLater) (there : history = second ++ other :: secondLater) :
    (∃ rest, second = first ++ one :: rest) ∨ (first = second ∧ one = other) ∨ ∃ rest, first = second ++ other :: rest := by
  rw [here] at there
  rcases List.append_eq_append_iff.mp there with ⟨rest, rfl, tail⟩ | ⟨rest, rfl, tail⟩
  · cases rest with
    | nil =>
      injection tail with same
      exact .inr (.inl ⟨(List.append_nil first).symm, same⟩)
    | cons next rest =>
      injection tail with same
      subst same
      exact .inl ⟨rest, rfl⟩
  · cases rest with
    | nil =>
      injection tail with same
      exact .inr (.inl ⟨List.append_nil second, same.symm⟩)
    | cons next rest =>
      injection tail with same
      subst same
      exact .inr (.inr ⟨rest, rfl⟩)

/-- The reference comes first exactly if its time is not past the audio processor's. -/
theorem Always.in_order {history earlier later before after : List Moment} {moment other : Moment}
    (always : Always (Timely kinds) history) (here : history = earlier ++ moment :: later) (there : history = before ++ other :: after)
    (reference : moment.ReferenceTouches) (audio : other.AudioTouches) :
    earlier.length < before.length ↔
      elapsed .cpu earlier * Clock.smpFrequency.toNat ≤ elapsed .smp before * Clock.cpuFrequency.toNat := by
  have timely := always earlier moment later here
  have behind := always before other after there
  have level := timely.reference_level reference
  have late := behind.audio_behind audio
  rw [timely.audio_clock] at level
  rw [behind.audio_clock] at late
  rcases history_order here there with ⟨rest, rfl⟩ | ⟨rfl, rfl⟩ | ⟨rest, rfl⟩
  · have more := Nat.mul_le_mul_right Clock.cpuFrequency.toNat (Nat.le_add_right (elapsed .smp earlier) (elapsed .smp (moment :: rest)))
    rw [← elapsed_append] at more
    refine ⟨fun _ => by omega, fun _ => ?_⟩
    rw [List.length_append, List.length_cons]
    omega
  · exact (Timely.touches_apart reference audio).elim
  · have more := Nat.mul_le_mul_right Clock.smpFrequency.toNat (Nat.le_add_right (elapsed .cpu before) (elapsed .cpu (other :: rest)))
    rw [← elapsed_append] at more
    refine ⟨fun shorter => ?_, fun _ => by omega⟩
    rw [List.length_append, List.length_cons] at shorter
    omega

namespace Console

/-- A console that is only run from power-on goes on for as long as it is asked to, and all that is recorded holds. -/
theorem watch_runs [Host ω] {configuration : Configuration} {cartridge : Cartridge} {seed : UInt64} {host : ω} {console : Console}
    (built : (Console.new configuration cartridge seed host).1 = .ok console) (wram : Vector UInt8 0x2000) (ram : Vector UInt8 0x1000)
    (cheats : List Cheat) {budget : Nat} (enough : Machine.ample 0 < budget) (count : Nat) {υ : Type} [Host υ] (listener : υ) :
    ∃ last history heard, (console.holding wram ram cheats).watch budget (List.replicate count .run) listener =
        (.ok (last, history), heard) ∧ Always (Timely cartridge.coprocessors) history := by
  have fresh := fresh_of_built built wram ram cheats
  obtain ⟨few, _⟩ := new_eq_ok built
  have answers := @Machine.Running.answers _ _ _ _ _ _ _ _ _ _ Watched.wraps few (Nat.zero_le _)
    (Recorded.upkeep cartridge.coprocessors cheats) _ enough console.method count _ _ fresh.running fresh.entered
    (Recorded.fresh fresh) listener
  obtain ⟨result, heard, returned, recorded⟩ := answers.exists_ok
  obtain ⟨scheduler, watched⟩ := result
  exact ⟨_, watched.history, heard, watch_eq_ok returned, recorded.past⟩

/-- The audio ports are touched in the order of time: by the reference while the audio processor is not behind, and by the
audio processor while it is. That is so whatever the cartridge and the memories hold, for as long as the console is run. -/
theorem audio_ports_in_order [Host ω] {configuration : Configuration} {cartridge : Cartridge} {seed : UInt64} {host : ω}
    {console : Console} (built : (Console.new configuration cartridge seed host).1 = .ok console) (wram : Vector UInt8 0x2000)
    (ram : Vector UInt8 0x1000) (cheats : List Cheat) :
    ∃ enough, ∀ budget, enough ≤ budget → ∀ (count : Nat) (υ : Type) [Host υ] (listener : υ), ∃ last history heard,
      (console.holding wram ram cheats).watch budget (List.replicate count .run) listener = (.ok (last, history), heard) ∧
      runFrames budget count (console.holding wram ram cheats) listener = (.ok last, heard) ∧
      Always (fun _ moment => (moment.ReferenceTouches → 0 ≤ moment.before.scheduler.time .smp) ∧
        (moment.AudioTouches → moment.before.scheduler.time .smp < 0)) history ∧
      ∀ earlier moment later before other after, history = earlier ++ moment :: later → history = before ++ other :: after →
        moment.ReferenceTouches → other.AudioTouches → (earlier.length < before.length ↔
          elapsed .cpu earlier * Clock.smpFrequency.toNat ≤ elapsed .smp before * Clock.cpuFrequency.toNat) := by
  refine ⟨Machine.ample 0 + 1, fun budget enough count υ _ listener => ?_⟩
  obtain ⟨last, history, heard, watched, always⟩ := watch_runs built wram ram cheats enough count listener
  refine ⟨last, history, heard, watched, ?_, ?_, ?_⟩
  · rw [← operate_runs]
    exact operate_of_watch watched
  · intro earlier moment later split
    have timely := always earlier moment later split
    exact ⟨timely.reference_level, timely.audio_behind⟩
  · intro earlier moment later before other after here there reference audio
    exact always.in_order here there reference audio

theorem audio_ports_in_order_switched_on : ∃ enough last history heard,
    (sample.holding (Vector.replicate 0x2000 2) (Vector.replicate 0x1000 1) []).watch enough [.run] () = (.ok (last, history), heard) ∧
      Always (fun _ moment => (moment.ReferenceTouches → 0 ≤ moment.before.scheduler.time .smp) ∧
        (moment.AudioTouches → moment.before.scheduler.time .smp < 0)) history := by
  have built : (Console.new Configuration.standard sample.cartridge 0 ()).1 = .ok sample := new_eq rfl Configuration.standard 0 ()
  obtain ⟨enough, ordered⟩ := audio_ports_in_order built (Vector.replicate 0x2000 2) (Vector.replicate 0x1000 1) []
  obtain ⟨last, history, heard, watched, _, held, _⟩ := ordered enough (Nat.le_refl _) 1 Unit ()
  exact ⟨enough, last, history, heard, watched, held⟩

end Console
end MultiClock
