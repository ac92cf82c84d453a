import MultiClock.Bench.Script
import MultiClock.Chip.Coprocessor
import MultiClock.Chip.Cpu
import MultiClock.Chip.Ppu
import MultiClock.Chip.Smp
import MultiClock.Host.Station

/-! A rig runs any chips in any order on one scheduler, with a bus of its own. -/

namespace MultiClock.Bench

inductive RigChip
  | cpu (chip : Cpu)
  | smp (chip : Smp)
  | ppu (chip : Ppu)
  | coprocessor (chip : Coprocessor)
  | script (chip : Script)

instance : Inhabited RigChip := ⟨.script ⟨1, #[], none, 0⟩⟩

namespace RigChip

def frequency : RigChip → UInt32
  | cpu chip => Chip.frequency chip
  | smp chip => Chip.frequency chip
  | ppu chip => Chip.frequency chip
  | coprocessor chip => Chip.frequency chip
  | script chip => Chip.frequency chip

def power (chip : RigChip) (seeding : Seeding) : RigChip × Seeding :=
  match chip with
  | cpu chip => let (chip, seeding) := Chip.power chip seeding; (cpu chip, seeding)
  | smp chip => let (chip, seeding) := Chip.power chip seeding; (smp chip, seeding)
  | ppu chip => let (chip, seeding) := Chip.power chip seeding; (ppu chip, seeding)
  | coprocessor chip => let (chip, seeding) := Chip.power chip seeding; (coprocessor chip, seeding)
  | script chip => let (chip, seeding) := Chip.power chip seeding; (script chip, seeding)

def slice (chip : RigChip) (cx : Context) : Except Fault (RigChip × Context) := do
  match chip with
  | cpu chip => let (chip, cx) ← Chip.slice chip cx; return (cpu chip, cx)
  | smp chip => let (chip, cx) ← Chip.slice chip cx; return (smp chip, cx)
  | ppu chip => let (chip, cx) ← Chip.slice chip cx; return (ppu chip, cx)
  | coprocessor chip => let (chip, cx) ← Chip.slice chip cx; return (coprocessor chip, cx)
  | script chip => let (chip, cx) ← Chip.slice chip cx; return (script chip, cx)

def serialize : RigChip → Visit RigChip
  | cpu chip => cpu <$> Chip.serialize chip
  | smp chip => smp <$> Chip.serialize chip
  | ppu chip => ppu <$> Chip.serialize chip
  | coprocessor chip => coprocessor <$> Chip.serialize chip
  | script chip => script <$> Chip.serialize chip

def serializeStack : RigChip → Visit RigChip
  | cpu chip => cpu <$> Chip.serializeStack chip
  | smp chip => smp <$> Chip.serializeStack chip
  | ppu chip => ppu <$> Chip.serializeStack chip
  | coprocessor chip => coprocessor <$> Chip.serializeStack chip
  | script chip => script <$> Chip.serializeStack chip

def atBoundary : RigChip → Bool
  | cpu chip => Chip.atBoundary chip
  | smp chip => Chip.atBoundary chip
  | ppu chip => Chip.atBoundary chip
  | coprocessor chip => Chip.atBoundary chip
  | script chip => Chip.atBoundary chip

instance : Chip RigChip where
  frequency := frequency
  power := power
  slice := slice
  serialize := serialize
  serializeStack := serializeStack
  atBoundary := atBoundary

end RigChip

structure Rig where
  bus : Bus
  chips : Array RigChip
  seeding : Seeding
  /-- Slices executed so far. -/
  slices : Nat

instance : Inhabited Rig := ⟨⟨Bus.new 0, #[], ⟨none⟩, 0⟩⟩

namespace Rig

/-- Powers on every chip in order, from where the seeding is. -/
def power (rig : Rig) : Rig :=
  let ⟨bus, chips, seeding, slices⟩ := rig
  let (chips, seeding) := chips.mapM (m := StateM Seeding) Chip.power seeding
  ⟨bus, chips, seeding, slices⟩

/-- A rig that is powered on, with a program at the beginning of its work memory. -/
def new (latches : Nat) (program : Array UInt8) (chips : Array RigChip) (seeding : Seeding) : Rig :=
  let bus := Bus.new latches
  power ⟨{ bus with wram := Bus.overlay program bus.wram }, chips, seeding, 0⟩

/-- A scheduler with a thread for every chip. -/
def scheduler (rig : Rig) : Scheduler :=
  rig.chips.foldl (fun scheduler chip => scheduler.create (Chip.frequency chip)) Scheduler.empty

instance : ChipSet Rig where
  slice id rig scheduler := do
    let ⟨bus, chips, seeding, slices⟩ := rig
    let cx : Context := ⟨bus, scheduler, id, []⟩
    let (chips, ⟨bus, scheduler, _, notices⟩) ←
      chips.modifyM (m := StateT Context (Except Fault)) id.index Chip.slice cx
    return (⟨bus, chips, seeding, slices + 1⟩, scheduler, notices)

/-- Registers and continuation of one chip. -/
def serializeChip (id : ThreadId) (rig : Rig) : Visit Rig := do
  let ⟨bus, chips, seeding, slices⟩ := rig
  let chips ← chips.modifyM id.index fun chip => do Chip.serializeStack (← Chip.serialize chip)
  return ⟨bus, chips, seeding, slices⟩

end Rig

/-- A host that keeps what it hears as text. -/
structure Listener where
  /-- Activities are kept, not only remarks. -/
  keepsActivities : Bool
  activities : Array String
  remarks : Array String
  /-- Frames that were completed while chips were driven. -/
  frames : Nat
  log : Log

namespace Listener

def hear (notice : Notice) (listener : Listener) : Listener :=
  let ⟨keepsActivities, activities, remarks, frames, log⟩ := listener
  match notice with
  | .activity activity =>
    let activities := if keepsActivities then activities.push activity.render else activities
    ⟨keepsActivities, activities, remarks, frames, log.note (.activity activity)⟩
  | .remark text => ⟨keepsActivities, activities, remarks.push text, frames, log⟩
  | notice => ⟨keepsActivities, activities, remarks, frames, log.note notice⟩

instance : Host Listener where
  notice := hear
  frame _ _ listener := listener

end Listener
end MultiClock.Bench
