import MultiClock.Machine.Board
import MultiClock.Scheduler.Enter

/-! A machine is everything that a snapshot captures: the chips and the scheduler that interleaves
them. -/

namespace MultiClock

structure Machine where
  scheduler : Scheduler
  board : Board

namespace Machine

/-- A machine that is switched off, with one thread per chip. -/
def new (coprocessors : List CoprocessorKind) : Machine :=
  let board := Board.new coprocessors
  ⟨board.frequencies.foldl Scheduler.create Scheduler.empty, board⟩

/-- Cold boot. -/
def power (machine : Machine) (seeding : Seeding) (program : Array UInt8) : Machine :=
  ⟨machine.scheduler.reset, machine.board.power seeding program⟩

/-- The clock and the registers of one thread, and its chip's continuation if `stack` is set. -/
def serializeThread (stack : Bool) (machine : Machine) (id : ThreadId) : Visit Machine := do
  let ⟨scheduler, board⟩ := machine
  let scheduler ← scheduler.serializeThread id
  let board ← board.serializeChip id stack
  return ⟨scheduler, board⟩

/-- Everything that follows the header of a snapshot. Portable snapshots leave out the
continuations and where the threads are suspended. -/
def serialize (machine : Machine) (portable : Bool) : Visit Machine := do
  let ⟨scheduler, ⟨bus, cpu, smp, ppu, coprocessors, frame⟩⟩ := machine
  let frame ← Serializer.word frame
  let bus ← Serializable.serialize bus
  let board : Board := ⟨bus, cpu, smp, ppu, coprocessors, frame⟩
  let ⟨scheduler, board⟩ ← board.threads.foldlM (serializeThread !portable) ⟨scheduler, board⟩
  if portable then return ⟨scheduler, board⟩
  return ⟨← scheduler.serializeStack, board⟩

/-- The size of a snapshot's body. Passing over the machine puts defaults in place of values that
no snapshot may hold. -/
def measure (machine : Machine) (portable : Bool) : Nat × Machine :=
  let (machine, s) := machine.serialize portable Serializer.measure
  (s.size, machine)

/-- Runs until the next frame completes. Other events only arise while chips are driven to their
synchronization points, and are passed over. -/
@[specialize] def run [Host ω] (budget : Nat) (cheats : List Cheat) (machine : Machine) :
    Run ω Machine :=
  rounds budget machine
where
  rounds : Nat → Machine → Run ω Machine
    | 0, _ => throw .exhausted
    | remaining + 1, machine => do
      let (scheduler, board) ← machine.scheduler.enter budget machine.board
      match scheduler.event with
      | .frame =>
        let board ← (board.completeFrame cheats : StateM ω Board)
        return ⟨scheduler, board⟩
      | .synchronized | .desynchronized => rounds remaining ⟨scheduler, board⟩

end Machine
end MultiClock
