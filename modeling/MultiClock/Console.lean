import MultiClock.Cartridge
import MultiClock.Configuration
import MultiClock.Machine
import MultiClock.Save.Drive
import MultiClock.Snapshot

/-! A console is a machine together with what the user put into it: a configuration, a cartridge and
cheats. It runs frame by frame, and it can be saved and restored. A snapshot is either portable,
taken after all chips were driven to their synchronization points, or instant, taken as the machine
is, with everything that is in flight. -/

namespace MultiClock

open Snapshot

structure Console where
  configuration : Configuration
  cartridge : Cartridge
  /-- How the chips are driven before a portable snapshot. -/
  method : SaveMethod
  machine : Machine
  /-- Applied at every frame, in this order. -/
  cheats : List Cheat

namespace Console

/-- A machine for a cartridge, freshly powered on. `hostSeed` only counts for high entropy. -/
def coldBoot (configuration : Configuration) (cartridge : Cartridge) (hostSeed : UInt64)
    (machine : Machine) : Machine :=
  machine.power (Seeding.ofEntropy configuration.entropy hostSeed) cartridge.program

section

variable [Host ω]

def powerOn (hostSeed : UInt64) (console : Console) : StateM ω Console := do
  let ⟨configuration, cartridge, method, machine, cheats⟩ := console
  let machine := coldBoot configuration cartridge hostSeed machine
  modify (Host.notice (.poweredOn cartridge.title cartridge.coprocessors.length))
  return ⟨configuration, cartridge, method, machine, cheats⟩

/-- Builds a machine for a cartridge and powers it on. -/
def new (configuration : Configuration) (cartridge : Cartridge) (hostSeed : UInt64) :
    StateM ω (Except Cartridge.Problem Console) := do
  match cartridge.validate with
  | .error problem => return .error problem
  | .ok () =>
    let method ← configuration.announceMethod cartridge.title
    let machine := Machine.new cartridge.coprocessors
    return .ok (← powerOn hostSeed ⟨configuration, cartridge, method, machine, []⟩)

/-- Runs until the next frame completes. -/
@[specialize] def run (budget : Nat) (console : Console) : Run ω Console := do
  let ⟨configuration, cartridge, method, machine, cheats⟩ := console
  let machine ← machine.run budget cheats
  return ⟨configuration, cartridge, method, machine, cheats⟩

@[specialize] def runFrames (budget : Nat) : (count : Nat) → Console → Run ω Console
  | 0, console => return console
  | count + 1, console => do runFrames budget count (← run budget console)

/-- Drives every chip to its synchronization point. -/
@[specialize] def runToSave (budget : Nat) (console : Console) : Run ω (SaveReport × Console) := do
  let ⟨configuration, cartridge, method, ⟨scheduler, board⟩, cheats⟩ := console
  let ⟨scheduler, board, report⟩ ←
    Save.runToSave (Board.completeFrame cheats) budget method scheduler board
  return (report, ⟨configuration, cartridge, method, ⟨scheduler, board⟩, cheats⟩)

/-- The size of a snapshot of the machine as it is. -/
def snapshotSize (portable : Bool) (console : Console) : Nat × Console :=
  let ⟨configuration, cartridge, method, machine, cheats⟩ := console
  let (size, machine) := machine.measure portable
  (Header.byteSize + size, ⟨configuration, cartridge, method, machine, cheats⟩)

/-- Writes the machine as it is into a snapshot. -/
def writeSnapshot (portable : Bool) (description : String) (console : Console) :
    Array UInt8 × Console :=
  let (size, ⟨configuration, cartridge, method, machine, cheats⟩) := console.snapshotSize portable
  let (_, s) := Serializable.serialize (Header.new size portable description) Serializer.save
  let (machine, s) := machine.serialize portable s
  (s.buffer, ⟨configuration, cartridge, method, machine, cheats⟩)

/-- Takes a snapshot. A portable one drives the machine to a consistent instant first; an instant
one is taken right now. -/
@[specialize] def save (budget : Nat) (portable : Bool) (description : String) (console : Console) :
    Run ω (Array UInt8 × Console) := do
  let console ← if portable then Prod.snd <$> runToSave budget console else pure console
  let (data, console) := console.writeSnapshot portable description
  Run.report (.saved portable console.machine.board.frame data.size)
  return (data, console)

/-- The machine in a snapshot whose header was accepted. -/
def readBody (hostSeed : UInt64) (console : Console) (header : Header) (data : Array UInt8) :
    Except SnapshotError Machine := do
  let machine := coldBoot console.configuration console.cartridge hostSeed
    (Machine.new console.cartridge.coprocessors)
  let (_, s) := Serializable.serialize (Header.new 0 false "") (Serializer.load data)
  let (machine, s) := machine.serialize header.portable s
  if s.overrun then throw .truncated
  match s.invalid with
  | some field => throw (.invalidValue field)
  | none => return machine

/-- Whether a snapshot may be one of this machine, whose snapshots have the size `measured`. -/
def checkHeader (header : Header) (measured : Nat) (data : Array UInt8) :
    Except SnapshotError Unit := do
  if header.size.toNat ≠ data.size then throw (.sizeMismatch header.size.toNat data.size)
  if measured ≠ data.size then throw (.sizeMismatch measured data.size)
  header.checkVersion

/-- After loading a portable snapshot all threads rest at their synchronization points. -/
def settleLoaded (portable : Bool) (machine : Machine) : Except Fault Machine := do
  if !portable then return machine
  return { machine with scheduler := ← machine.scheduler.parkAll.setActive .cpu }

/-- Restores a snapshot. A refused snapshot leaves the machine as it is, measured once. -/
def load (hostSeed : UInt64) (data : Array UInt8) (console : Console) :
    Run ω (Except SnapshotError Unit × Console) := do
  match Header.parse data with
  | .error problem => return (.error problem, console)
  | .ok header =>
    let (measured, console) := console.snapshotSize header.portable
    match checkHeader header measured data *> readBody hostSeed console header data with
    | .error problem => return (.error problem, console)
    | .ok machine =>
      let machine ← Run.ofExcept (settleLoaded header.portable machine)
      Run.report (.loaded header.portable header.descriptionText machine.board.frame)
      return (.ok (), { console with machine })

end

def addCheat (cheat : Cheat) (console : Console) : Console :=
  { console with cheats := console.cheats ++ [cheat] }

def clearCheats (console : Console) : Console := { console with cheats := [] }

end Console
end MultiClock
