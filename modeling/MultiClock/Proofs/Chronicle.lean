import MultiClock.Proofs.Watching

/-! What happens to a machine, in the order in which it happens: every slice, and every frame that is handed to the host.
Chips that keep such a chronicle do the same as ever. -/

namespace MultiClock

/-- Something that happens to a machine. -/
inductive Entry
  | slice (moment : Moment)
  /-- A frame is handed to the host. The chips before and after that. -/
  | frame (before after : Board)

namespace Entry

def moment? : Entry → Option Moment
  | slice moment => some moment
  | frame _ _ => none

/-- The picture and the sound that the host gets. -/
def handed? : Entry → Option (Framebuffer × Array Int16)
  | slice _ => none
  | frame before _ => some (before.ppu.picture, before.smp.samples)

end Entry

def slicesOf (entries : List Entry) : List Moment := entries.filterMap Entry.moment?

/-- What the host was handed. -/
def framesOf (entries : List Entry) : List (Framebuffer × Array Int16) := entries.filterMap Entry.handed?

section
variable (entries later : List Entry) (moment : Moment) (before after : Board)

@[simp] theorem slicesOf_append : slicesOf (entries ++ later) = slicesOf entries ++ slicesOf later := List.filterMap_append

@[simp] theorem framesOf_append : framesOf (entries ++ later) = framesOf entries ++ framesOf later := List.filterMap_append

@[simp] theorem slicesOf_slice : slicesOf (.slice moment :: entries) = moment :: slicesOf entries := rfl

@[simp] theorem slicesOf_frame : slicesOf (.frame before after :: entries) = slicesOf entries := rfl

@[simp] theorem framesOf_slice : framesOf (.slice moment :: entries) = framesOf entries := rfl

@[simp] theorem framesOf_frame : framesOf (.frame before after :: entries) =
    (before.ppu.picture, before.smp.samples) :: framesOf entries := rfl

@[simp] theorem slicesOf_nil : slicesOf [] = [] := rfl

@[simp] theorem framesOf_nil : framesOf [] = [] := rfl

theorem elapsed_slice (id : ThreadId) :
    elapsed id (slicesOf (entries ++ [.slice moment])) = elapsed id (slicesOf entries) + unitsOf id moment.notices := by
  rw [slicesOf_append, elapsed_append]
  simp [elapsed]

end

/-- Holds of everything that happened, given what happened before it. -/
def Throughout (holds : List Entry → Entry → Prop) (entries : List Entry) : Prop :=
  ∀ earlier entry later, entries = earlier ++ entry :: later → holds earlier entry

theorem Throughout.nil {holds : List Entry → Entry → Prop} : Throughout holds [] := by
  intro earlier entry later split
  simp at split

theorem Throughout.snoc {holds : List Entry → Entry → Prop} {entries : List Entry} {last : Entry}
    (throughout : Throughout holds entries) (here : holds entries last) : Throughout holds (entries ++ [last]) := by
  intro earlier entry later split
  obtain ⟨rfl, rfl, _⟩ | ⟨rest, _, whole⟩ := snoc_split split
  · exact here
  · exact throughout earlier entry rest whole

/-- The display processor hands over a frame at the end of this slice. -/
def Moment.Raises (moment : Moment) : Prop := moment.after.scheduler.transfer = some (.leave .frame)

/-- A board with all that happened to it. -/
structure Chronicle where
  board : Board
  entries : List Entry

namespace Chronicle

instance : ChipSet Chronicle where
  slice id chronicle scheduler := do
    let (board, later, notices) ← ChipSet.slice id chronicle.board scheduler
    return (⟨board, chronicle.entries ++ [.slice ⟨⟨scheduler, chronicle.board⟩, ⟨later, board⟩, notices⟩]⟩, later, notices)

def completeFrame [Host ω] (cheats : List Cheat) (chronicle : Chronicle) : StateM ω Chronicle := do
  let board ← chronicle.board.completeFrame cheats
  return ⟨board, chronicle.entries ++ [.frame chronicle.board board]⟩

/-- A chronicle without the frames. -/
def watched (chronicle : Chronicle) : Watched := ⟨chronicle.board, slicesOf chronicle.entries⟩

theorem wraps : ChipSet.Wraps Chronicle.board := by
  intro id chronicle scheduler
  change ChipSet.slice id chronicle.board scheduler = Except.map _ (ChipSet.slice id chronicle.board scheduler >>= _)
  cases ChipSet.slice id chronicle.board scheduler <;> rfl

theorem watched_wraps : ChipSet.Wraps Chronicle.watched := by
  intro id chronicle scheduler
  change (ChipSet.slice id chronicle.board scheduler >>= _) = Except.map _ (ChipSet.slice id chronicle.board scheduler >>= _)
  cases ChipSet.slice id chronicle.board scheduler with
  | error fault => rfl
  | ok result =>
    obtain ⟨board, later, notices⟩ := result
    simp [Except.map, watched, Bind.bind, Except.bind, Pure.pure, Except.pure]

theorem entries_of_slice {id : ThreadId} {chronicle moved : Chronicle} {scheduler later : Scheduler} {notices : List Notice}
    (sliced : ChipSet.slice id chronicle scheduler = .ok (moved, later, notices)) :
    moved.entries = chronicle.entries ++ [.slice ⟨⟨scheduler, chronicle.board⟩, ⟨later, moved.board⟩, notices⟩] := by
  obtain ⟨result, _, same⟩ := Except.bind_eq_ok sliced
  cases same
  rfl

end Chronicle

namespace Console

/-- A console does what it is asked for, and all that happens is written down. -/
def chronicle [Host ω] (budget : Nat) (requests : List Request) (console : Console) : Run ω (Console × List Entry) := do
  let (scheduler, chronicle) ← Scheduler.answerAll (Chronicle.completeFrame console.cheats) console.method budget requests
    (console.machine.scheduler, ⟨console.machine.board, []⟩)
  return ({ console with machine := ⟨scheduler, chronicle.board⟩ }, chronicle.entries)

variable [Host ω] {budget : Nat} {requests : List Request} {console last : Console} {host heard : ω}

theorem chronicle_eq_ok {scheduler : Scheduler} {chronicle : Chronicle}
    (answered : Scheduler.answerAll (Chronicle.completeFrame console.cheats) console.method budget requests
      (console.machine.scheduler, ⟨console.machine.board, []⟩) host = (.ok (scheduler, chronicle), heard)) :
    console.chronicle budget requests host =
      (.ok ({ console with machine := ⟨scheduler, chronicle.board⟩ }, chronicle.entries), heard) := by
  rw [Console.chronicle, Run.bind_apply, answered]
  rfl

/-- Whatever a console does can be written down. -/
theorem chronicle_of_operate (operated : console.operate budget requests host = (.ok last, heard)) :
    ∃ entries, console.chronicle budget requests host = (.ok (last, entries), heard) := by
  have frames : ∀ chronicle : Chronicle, (Board.completeFrame console.cheats chronicle.board : StateM ω Board) =
      Chronicle.board <$> Chronicle.completeFrame console.cheats chronicle := fun _ => rfl
  rw [operate_eq, Scheduler.answerAll_wraps Chronicle.wraps frames console.method budget requests console.machine.scheduler
    ⟨console.machine.board, []⟩, bind_map_left] at operated
  obtain ⟨result, told, answered, same⟩ := Run.bind_eq_ok operated
  obtain ⟨scheduler, chronicle⟩ := result
  cases same
  exact ⟨chronicle.entries, chronicle_eq_ok answered⟩

/-- Whoever watches a console sees the slices of its chronicle. -/
theorem chronicle_of_watch {history : List Moment} (watched : console.watch budget requests host = (.ok (last, history), heard)) :
    ∃ entries, console.chronicle budget requests host = (.ok (last, entries), heard) ∧ slicesOf entries = history := by
  have frames : ∀ chronicle : Chronicle, (Watched.completeFrame console.cheats chronicle.watched : StateM ω Watched) =
      Chronicle.watched <$> Chronicle.completeFrame console.cheats chronicle := by
    intro chronicle
    funext told
    simp [Watched.completeFrame, Chronicle.completeFrame, Chronicle.watched]
  have views := Scheduler.answerAll_wraps Chronicle.watched_wraps frames console.method budget requests
    console.machine.scheduler ⟨console.machine.board, []⟩
  rw [watch] at watched
  obtain ⟨result, told, answered, same⟩ := Run.bind_eq_ok watched
  rw [show (⟨console.machine.board, []⟩ : Watched) = Chronicle.watched ⟨console.machine.board, []⟩ from rfl, views] at answered
  obtain ⟨middle, returned, rfl⟩ := Run.map_eq_ok answered
  obtain ⟨scheduler, chronicle⟩ := middle
  cases same
  exact ⟨chronicle.entries, chronicle_eq_ok returned, rfl⟩

end Console
end MultiClock
