import MultiClock.Cheat
import MultiClock.Chip.Coprocessor
import MultiClock.Chip.Cpu
import MultiClock.Chip.Ppu
import MultiClock.Chip.Smp

/-! The chips of one machine, wired to a shared bus, and the count of the frames that the host has
seen of them. -/

namespace MultiClock

structure Board where
  bus : Bus
  cpu : Cpu
  smp : Smp
  ppu : Ppu
  coprocessors : Array Coprocessor
  /-- Frames that were handed to the host since power-on. -/
  frame : UInt64

/-- A chip in one piece: its registers, and its continuation if `stack` is set. -/
@[inline] def Chip.visit [Chip χ] (stack : Bool) (chip : χ) : Visit χ := do
  let chip ← Chip.serialize chip
  if stack then Chip.serializeStack chip else return chip

namespace Board

/-- The coprocessors are numbered in the given order. -/
def new (coprocessors : List CoprocessorKind) : Board where
  bus := Bus.new coprocessors.length
  cpu := Cpu.new (UInt8.ofNat coprocessors.length)
  smp := Smp.new
  ppu := Ppu.new
  coprocessors :=
    (coprocessors.mapIdx fun i kind => Coprocessor.create kind (UInt8.ofNat i)).toArray
  frame := 0

/-- The threads of all chips, in the order in which a scheduler keeps them. -/
def threads (board : Board) : List ThreadId :=
  .cpu :: .smp :: .ppu ::
    (List.range board.coprocessors.size).map fun i => .coprocessor (UInt8.ofNat i)

/-- The frequencies of all chips, in the same order. -/
def frequencies (board : Board) : List UInt32 :=
  Chip.frequency board.cpu :: Chip.frequency board.smp :: Chip.frequency board.ppu ::
    board.coprocessors.toList.map Chip.frequency

/-- A chip's frequency and whether it has no unit of work in flight. -/
def inspect? (board : Board) : ThreadId → Option (UInt32 × Bool)
  | .cpu => some (Chip.frequency board.cpu, Chip.atBoundary board.cpu)
  | .smp => some (Chip.frequency board.smp, Chip.atBoundary board.smp)
  | .ppu => some (Chip.frequency board.ppu, Chip.atBoundary board.ppu)
  | .coprocessor index =>
    board.coprocessors[index.toNat]?.map fun chip => (Chip.frequency chip, Chip.atBoundary chip)

/-- No chip has a unit of work in flight. -/
def atBoundary (board : Board) : Bool :=
  Chip.atBoundary board.cpu && Chip.atBoundary board.smp && Chip.atBoundary board.ppu &&
    board.coprocessors.all Chip.atBoundary

/-- Powers on every chip. Work memory is seeded, then a program is laid over its beginning. -/
def power (board : Board) (seeding : Seeding) (program : Array UInt8) : Board :=
  let (wram, seeding) := seeding.memory 0x2000
  let bus := { board.bus with wram := Bus.overlay program wram }.reset
  let (cpu, seeding) := Chip.power board.cpu seeding
  let (smp, seeding) := Chip.power board.smp seeding
  let (ppu, seeding) := Chip.power board.ppu seeding
  let (coprocessors, _) := board.coprocessors.mapM (m := StateM Seeding) Chip.power seeding
  ⟨bus, cpu, smp, ppu, coprocessors, 0⟩

/-- The registers of a chip, and its continuation if `stack` is set. -/
def serializeChip (board : Board) (id : ThreadId) (stack : Bool) : Visit Board := do
  let ⟨bus, cpu, smp, ppu, coprocessors, frame⟩ := board
  match id with
  | .cpu => return ⟨bus, ← Chip.visit stack cpu, smp, ppu, coprocessors, frame⟩
  | .smp => return ⟨bus, cpu, ← Chip.visit stack smp, ppu, coprocessors, frame⟩
  | .ppu => return ⟨bus, cpu, smp, ← Chip.visit stack ppu, coprocessors, frame⟩
  | .coprocessor index =>
    let coprocessors ← coprocessors.modifyM index.toNat (Chip.visit stack)
    return ⟨bus, cpu, smp, ppu, coprocessors, frame⟩

/-- One slice of a chip. A thread without a chip does nothing. -/
def slice (id : ThreadId) (board : Board) (scheduler : Scheduler) :
    Except Fault (Board × Scheduler × List Notice) := do
  let ⟨bus, cpu, smp, ppu, coprocessors, frame⟩ := board
  let cx : Context := ⟨bus, scheduler, id, []⟩
  match id with
  | .cpu =>
    let (cpu, ⟨bus, scheduler, _, notices⟩) ← Chip.slice cpu cx
    return (⟨bus, cpu, smp, ppu, coprocessors, frame⟩, scheduler, notices)
  | .smp =>
    let (smp, ⟨bus, scheduler, _, notices⟩) ← Chip.slice smp cx
    return (⟨bus, cpu, smp, ppu, coprocessors, frame⟩, scheduler, notices)
  | .ppu =>
    let (ppu, ⟨bus, scheduler, _, notices⟩) ← Chip.slice ppu cx
    return (⟨bus, cpu, smp, ppu, coprocessors, frame⟩, scheduler, notices)
  | .coprocessor index =>
    let (coprocessors, ⟨bus, scheduler, _, notices⟩) ←
      coprocessors.modifyM (m := StateT Context (Except Fault)) index.toNat Chip.slice cx
    return (⟨bus, cpu, smp, ppu, coprocessors, frame⟩, scheduler, notices)

instance : ChipSet Board where
  slice := slice

/-- What is done at every frame: the host gets the picture and the sound, and the cheats are applied
in their order. -/
def completeFrame [Host ω] (cheats : List Cheat) (board : Board) : StateM ω Board := do
  let ⟨bus, cpu, smp, ppu, coprocessors, frame⟩ := board
  modify (Host.frame ppu.picture smp.samples)
  let bus := cheats.foldl (fun bus cheat => cheat.apply bus) bus
  return ⟨bus, cpu, smp.clearSamples, ppu, coprocessors, frame + 1⟩

end Board
end MultiClock
