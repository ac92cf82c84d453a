import MultiClock.Proofs.PlainRuns
import MultiClock.Proofs.WrappedChips

/-! What can be said of every single slice. Chips can be watched: they do the same as ever, and every slice is written down
with the machine in front of it and right after it. -/

namespace MultiClock

variable {loads : Loads} {kinds : List CoprocessorKind} {slack : Nat}

/-- A slice: the machine in front of it and right after it, and what it reported. -/
structure Moment where
  before : Machine
  after : Machine
  notices : List Notice

/-- The clock units that a thread stepped in all these slices. -/
def elapsed (id : ThreadId) (history : List Moment) : Nat := (history.map fun moment => unitsOf id moment.notices).sum

@[simp] theorem elapsed_append (id : ThreadId) (first second : List Moment) :
    elapsed id (first ++ second) = elapsed id first + elapsed id second := by
  simp [elapsed]

/-- Where an item is in a list to which another one was added at the end. -/
theorem snoc_split {items earlier later : List α} {last item : α} (split : items ++ [last] = earlier ++ item :: later) :
    (earlier = items ∧ item = last ∧ later = []) ∨ ∃ rest, later = rest ++ [last] ∧ items = earlier ++ item :: rest := by
  obtain rfl | ⟨rest, final, rfl⟩ := List.eq_nil_or_concat later
  · obtain ⟨rfl, same⟩ := List.append_inj' split rfl
    cases same
    exact .inl ⟨rfl, rfl, rfl⟩
  · rw [List.concat_eq_append, ← List.cons_append, ← List.append_assoc] at split
    obtain ⟨whole, same⟩ := List.append_inj' split rfl
    cases same
    exact .inr ⟨rest, List.concat_eq_append, whole⟩

/-- Holds of every slice of a history, given the slices before it. -/
def Always (holds : List Moment → Moment → Prop) (history : List Moment) : Prop :=
  ∀ earlier moment later, history = earlier ++ moment :: later → holds earlier moment

theorem Always.nil {holds : List Moment → Moment → Prop} : Always holds [] := by
  intro earlier moment later split
  simp at split

theorem Always.snoc {holds : List Moment → Moment → Prop} {history : List Moment} {last : Moment} (always : Always holds history)
    (here : holds history last) : Always holds (history ++ [last]) := by
  intro earlier moment later split
  obtain ⟨rfl, rfl, _⟩ | ⟨rest, _, whole⟩ := snoc_split split
  · exact here
  · exact always earlier moment rest whole

/-- A board with the slices of its chips so far, in their order. -/
structure Watched where
  board : Board
  history : List Moment

namespace Watched

instance : ChipSet Watched where
  slice id watched scheduler := do
    let (board, later, notices) ← ChipSet.slice id watched.board scheduler
    return (⟨board, watched.history ++ [⟨⟨scheduler, watched.board⟩, ⟨later, board⟩, notices⟩]⟩, later, notices)

/-- Watching does not get in the way. -/
theorem wraps : ChipSet.Wraps Watched.board := by
  intro id watched scheduler
  change ChipSet.slice id watched.board scheduler = Except.map _ (ChipSet.slice id watched.board scheduler >>= _)
  cases ChipSet.slice id watched.board scheduler <;> rfl

theorem history_of_slice {id : ThreadId} {watched moved : Watched} {scheduler later : Scheduler} {notices : List Notice}
    (sliced : ChipSet.slice id watched scheduler = .ok (moved, later, notices)) :
    moved.history = watched.history ++ [⟨⟨scheduler, watched.board⟩, ⟨later, moved.board⟩, notices⟩] := by
  obtain ⟨result, _, same⟩ := Except.bind_eq_ok sliced
  cases same
  rfl

def completeFrame [Host ω] (cheats : List Cheat) (watched : Watched) : StateM ω Watched := do
  return { watched with board := ← watched.board.completeFrame cheats }

end Watched

/-- What a host asks a machine for. -/
inductive Request
  | run
  | save

namespace Scheduler

section
variable [ChipSet σ] [Host ω] (onFrame : σ → StateM ω σ) (method : SaveMethod) (budget : Nat)

/-- Runs any chips until the next frame completes. -/
def runToFrame : Nat → Scheduler → σ → Run ω (Scheduler × σ)
  | 0, _, _ => throw .exhausted
  | rounds + 1, scheduler, chips => do
    let (scheduler, chips) ← scheduler.enter budget chips
    match scheduler.event with
    | .frame =>
      let chips ← (onFrame chips : StateM ω σ)
      return (scheduler, chips)
    | .synchronized | .desynchronized => runToFrame rounds scheduler chips

def answer : Request → Scheduler × σ → Run ω (Scheduler × σ)
  | .run, (scheduler, chips) => runToFrame onFrame budget budget scheduler chips
  | .save, (scheduler, chips) => do
    let driving ← Save.runToSave onFrame budget method scheduler chips
    return (driving.scheduler, driving.chips)

def answerAll : List Request → Scheduler × σ → Run ω (Scheduler × σ)
  | [], machine => return machine
  | request :: rest, machine => do
    let machine ← answer onFrame method budget request machine
    answerAll rest machine

end

section wraps
variable [ChipSet σ] [ChipSet τ] [Host ω] {view : σ → τ} {onFrame : σ → StateM ω σ} {onSeen : τ → StateM ω τ}
  (wraps : ChipSet.Wraps view) (frames : ∀ chips, onSeen (view chips) = view <$> onFrame chips)
include wraps frames

theorem runToFrame_wraps (budget rounds : Nat) (scheduler : Scheduler) (chips : σ) :
    runToFrame onSeen budget rounds scheduler (view chips) =
      (fun result => (result.1, view result.2)) <$> runToFrame onFrame budget rounds scheduler chips := by
  induction rounds generalizing scheduler chips with
  | zero => rfl
  | succ rounds ih =>
    rw [runToFrame, runToFrame, enter_wraps wraps, bind_map_left, map_bind]
    refine bind_congr fun result => ?_
    obtain ⟨later, moved⟩ := result
    cases event : later.event with
    | frame =>
      simp only [event, frames, liftM_map, bind_map_left, map_bind, map_pure]
    | synchronized | desynchronized =>
      simp only [event]
      exact ih later moved

theorem answerAll_wraps (method : SaveMethod) (budget : Nat) (requests : List Request) (scheduler : Scheduler) (chips : σ) :
    answerAll onSeen method budget requests (scheduler, view chips) =
      (fun result => (result.1, view result.2)) <$> answerAll onFrame method budget requests (scheduler, chips) := by
  induction requests generalizing scheduler chips with
  | nil => rfl
  | cons request rest ih =>
    rw [answerAll, answerAll, map_bind]
    cases request with
    | run =>
      rw [answer, answer, runToFrame_wraps wraps frames, bind_map_left]
      exact bind_congr fun result => ih result.1 result.2
    | save =>
      rw [answer, answer, Save.runToSave_wraps wraps frames, bind_map_left, bind_assoc, bind_assoc]
      refine bind_congr fun driving => ?_
      rw [pure_bind, pure_bind]
      exact ih driving.scheduler driving.chips

end wraps

/-- A machine runs like any chips. -/
theorem runToFrame_board [Host ω] (budget : Nat) (cheats : List Cheat) (machine : Machine) :
    (machine.run budget cheats : Run ω Machine) = do
      let (scheduler, board) ← runToFrame (Board.completeFrame cheats) budget budget machine.scheduler machine.board
      return ⟨scheduler, board⟩ := by
  suffices looped : ∀ rounds (machine : Machine), (Machine.run.rounds budget cheats rounds machine : Run ω Machine) = do
      let (scheduler, board) ← runToFrame (Board.completeFrame cheats) budget rounds machine.scheduler machine.board
      return ⟨scheduler, board⟩ from looped budget machine
  intro rounds
  induction rounds with
  | zero => exact fun _ => rfl
  | succ rounds ih =>
    intro machine
    rw [Machine.run.rounds, runToFrame, bind_assoc]
    refine bind_congr fun result => ?_
    obtain ⟨scheduler, board⟩ := result
    cases event : scheduler.event with
    | frame => simp only [event, bind_assoc, pure_bind]
    | synchronized | desynchronized =>
      simp only [event]
      exact ih ⟨scheduler, board⟩

end Scheduler

namespace Console

/-- A console with other contents of its memories, and with some cheats. -/
def holding (wram : Vector UInt8 0x2000) (ram : Vector UInt8 0x1000) (cheats : List Cheat) (console : Console) : Console :=
  { console with machine := console.machine.holding wram ram, cheats }

/-- A console does what it is asked for. -/
def operate [Host ω] (budget : Nat) : List Request → Console → Run ω Console
  | [], console => return console
  | .run :: rest, console => do operate budget rest (← console.run budget)
  | .save :: rest, console => do
    let (_, console) ← console.runToSave budget
    operate budget rest console

/-- A console does what it is asked for, and every slice is written down. -/
def watch [Host ω] (budget : Nat) (requests : List Request) (console : Console) : Run ω (Console × List Moment) := do
  let (scheduler, watched) ← Scheduler.answerAll (Watched.completeFrame console.cheats) console.method budget requests
    (console.machine.scheduler, ⟨console.machine.board, []⟩)
  return ({ console with machine := ⟨scheduler, watched.board⟩ }, watched.history)

theorem operate_eq [Host ω] (budget : Nat) (requests : List Request) (console : Console) :
    (console.operate budget requests : Run ω Console) = do
      let (scheduler, board) ← Scheduler.answerAll (Board.completeFrame console.cheats) console.method budget requests
        (console.machine.scheduler, console.machine.board)
      return { console with machine := ⟨scheduler, board⟩ } := by
  induction requests generalizing console with
  | nil => rfl
  | cons request rest ih =>
    rw [Scheduler.answerAll, bind_assoc]
    cases request with
    | run =>
      rw [operate, run_eq, Scheduler.runToFrame_board, bind_assoc, bind_assoc, Scheduler.answer]
      exact bind_congr fun result => ih { console with machine := ⟨result.1, result.2⟩ }
    | save =>
      rw [operate, runToSave_eq, bind_assoc, Scheduler.answer, bind_assoc]
      exact bind_congr fun driving => ih { console with machine := ⟨driving.scheduler, driving.chips⟩ }

theorem watch_eq_ok [Host ω] {budget : Nat} {requests : List Request} {console : Console} {scheduler : Scheduler} {watched : Watched}
    {host heard : ω} (answered : Scheduler.answerAll (Watched.completeFrame console.cheats) console.method budget requests
      (console.machine.scheduler, ⟨console.machine.board, []⟩) host = (.ok (scheduler, watched), heard)) :
    console.watch budget requests host =
      (.ok ({ console with machine := ⟨scheduler, watched.board⟩ }, watched.history), heard) := by
  rw [watch, Run.bind_apply, answered]
  rfl

/-- Whoever watches sees what the console really does. -/
theorem operate_of_watch [Host ω] {budget : Nat} {requests : List Request} {console last : Console} {history : List Moment}
    {host heard : ω} (watched : console.watch budget requests host = (.ok (last, history), heard)) :
    console.operate budget requests host = (.ok last, heard) := by
  have frames : ∀ watched : Watched, (Board.completeFrame console.cheats watched.board : StateM ω Board) =
      Watched.board <$> Watched.completeFrame console.cheats watched := fun _ => rfl
  obtain ⟨result, told, answered, same⟩ := Run.bind_eq_ok watched
  obtain ⟨scheduler, later⟩ := result
  cases same
  rw [operate_eq, Scheduler.answerAll_wraps Watched.wraps frames console.method budget requests console.machine.scheduler
    ⟨console.machine.board, []⟩, bind_map_left, Run.bind_apply, answered]
  rfl

theorem operate_runs [Host ω] (budget count : Nat) (console : Console) :
    (console.operate budget (List.replicate count .run) : Run ω Console) = runFrames budget count console := by
  induction count generalizing console with
  | zero => rfl
  | succ count ih =>
    rw [List.replicate_succ, operate, runFrames]
    exact bind_congr ih

/-- A console that is built is fresh, whatever its memories hold. -/
theorem fresh_of_built [Host ω] {configuration : Configuration} {cartridge : Cartridge} {seed : UInt64} {host : ω} {console : Console}
    (built : (Console.new configuration cartridge seed host).1 = .ok console) (wram : Vector UInt8 0x2000) (ram : Vector UInt8 0x1000)
    (cheats : List Cheat) : (console.holding wram ram cheats).machine.Fresh cartridge.coprocessors := by
  obtain ⟨few, _, machine⟩ := new_eq_ok built
  have fresh : console.machine.Fresh cartridge.coprocessors := by
    rw [machine]
    exact Machine.new_fresh few _ _
  exact fresh.holding wram ram

end Console

namespace Machine

/-- What every turn of normal execution keeps, and what the host keeps in between. -/
structure Upkeep [ChipSet σ] [Host ω] (slack : Nat) (loads : Loads) (kinds : List CoprocessorKind) (board : σ → Board)
    (onFrame : σ → StateM ω σ) (also : Scheduler → σ → Prop) : Prop where
  turn : ∀ scheduler chips, Running slack loads kinds ⟨scheduler, board chips⟩ → Inside ⟨scheduler, board chips⟩ →
    also scheduler chips → ∀ action later moved middle notices,
    Sliced board loads kinds scheduler chips action later moved middle notices → also later moved
  enter : ∀ scheduler chips, also scheduler chips → also { scheduler.transferTo scheduler.active with entered := true } chips
  frame : ∀ scheduler chips (host : ω), also scheduler chips → also scheduler (onFrame chips host).1
  board : ∃ cheats, ∀ chips (host : ω), board (onFrame chips host).1 = ((board chips).completeFrame cheats host).1

/-- A machine always comes to the next frame, and keeps what is kept. -/
theorem Running.answers_run [ChipSet σ] [Host ω] {board : σ → Board} {onFrame : σ → StateM ω σ} {also : Scheduler → σ → Prop}
    (wraps : ChipSet.Wraps board) (few : kinds.length ≤ Cartridge.maxCoprocessors) (small : slack ≤ 2 ^ 60)
    (upkeep : Upkeep slack loads kinds board onFrame also) {budget : Nat} (enough : ample slack < budget) (method : SaveMethod)
    {scheduler : Scheduler} {chips : σ} (running : Running slack loads kinds ⟨scheduler, board chips⟩)
    (outside : scheduler.entered = false) (begins : also scheduler chips) {host : ω} :
    (Scheduler.answer onFrame method budget .run (scheduler, chips)).Meets (fun _ => False)
      (fun result _ => Framed slack loads kinds ⟨result.1, board result.2⟩ ∧ also result.1 result.2) host := by
  obtain ⟨cheats, frames⟩ := upkeep.board
  obtain ⟨rounds, rfl⟩ := Nat.exists_eq_add_one.mpr (Nat.zero_lt_of_lt enough)
  rw [Scheduler.answer, Scheduler.runToFrame]
  refine (running.enter_ends wraps few small also upkeep.turn outside (upkeep.enter _ _ begins) enough).bind ?_
  intro result heard ended
  obtain ⟨later, moved⟩ := result
  obtain ⟨framed, held⟩ := ended
  have event : later.event = .frame := framed.event
  simp only [event]
  have handed : Run.Meets (fun _ => False) (fun (last : σ) (_ : ω) => Framed slack loads kinds ⟨later, board last⟩ ∧ also later last)
      (liftM (onFrame moved) : Run ω σ) heard := by
    refine .lift ⟨⟨?_, framed.outside, framed.event, framed.active⟩, upkeep.frame later moved heard held⟩
    rw [frames]
    exact framed.running.completeFrame cheats heard
  exact handed.bind fun last host kept => .pure kept

/-- A machine that is only run always answers. -/
theorem Running.answers [ChipSet σ] [Host ω] {board : σ → Board} {onFrame : σ → StateM ω σ} {also : Scheduler → σ → Prop}
    (wraps : ChipSet.Wraps board) (few : kinds.length ≤ Cartridge.maxCoprocessors) (small : slack ≤ 2 ^ 60)
    (upkeep : Upkeep slack loads kinds board onFrame also) {budget : Nat} (enough : ample slack < budget) (method : SaveMethod)
    (count : Nat) {scheduler : Scheduler} {chips : σ} (running : Running slack loads kinds ⟨scheduler, board chips⟩)
    (outside : scheduler.entered = false) (begins : also scheduler chips) {host : ω} :
    (Scheduler.answerAll onFrame method budget (List.replicate count .run) (scheduler, chips)).Meets (fun _ => False)
      (fun result _ => also result.1 result.2) host := by
  induction count generalizing scheduler chips host with
  | zero => exact .pure begins
  | succ count ih =>
    rw [List.replicate_succ, Scheduler.answerAll]
    refine (running.answers_run wraps few small upkeep enough method outside begins).bind fun result heard framed => ?_
    exact ih framed.1.running framed.1.outside framed.2

end Machine
end MultiClock
