import MultiClock.Proofs.AlikeReaders
import MultiClock.Proofs.Reachability

/-! Everything that a user can do with a console, one operation after the other. Consoles that agree in all that
an operation reads answer alike for good, and their hosts hear the same. -/

namespace MultiClock

open Visit Snapshot

variable {kinds : List CoprocessorKind}

/-- What a user can do with a console. -/
inductive Operation
  | run
  | runFrames (count : Nat)
  | runToSave
  | save (portable : Bool) (description : String)
  | measure (portable : Bool)
  | load (seed : UInt64) (data : Array UInt8)
  | addCheat (cheat : Cheat)
  | clearCheats
  | powerOn (seed : UInt64)

/-- What comes back from an operation. -/
inductive Answer
  | done
  | report (report : SaveReport)
  | snapshot (data : Array UInt8)
  | size (size : Nat)
  | loaded (result : Except SnapshotError Unit)

namespace Console

variable [Host ω] (budget : Nat)

def perform (console : Console) : Operation → Run ω (Answer × Console)
  | .run => do return (.done, ← console.run budget)
  | .runFrames count => do return (.done, ← runFrames budget count console)
  | .runToSave => do
    let (report, console) ← console.runToSave budget
    return (.report report, console)
  | .save portable description => do
    let (data, console) ← console.save budget portable description
    return (.snapshot data, console)
  | .measure portable => return (.size (console.snapshotSize portable).1, (console.snapshotSize portable).2)
  | .load seed data => do
    let (result, console) ← console.load seed data
    return (.loaded result, console)
  | .addCheat cheat => return (.done, console.addCheat cheat)
  | .clearCheats => return (.done, console.clearCheats)
  | .powerOn seed => do return (.done, ← (console.powerOn seed : StateM ω Console))

/-- One operation after the other, up to the first that breaks off. -/
def performAll : List Operation → Console → Run ω (List Answer × Console)
  | [], console => return ([], console)
  | operation :: rest, console => do
    let (answer, console) ← console.perform budget operation
    let (answers, console) ← performAll rest console
    return (answer :: answers, console)

end Console

/-- Consoles with the same cheats, method and machine, up to why control last came back. They may hold different
programs and be set up otherwise, unless they are powered on again. -/
structure Console.Twins (reboots : Prop) (one other : Console) : Prop where
  cheats : other.cheats = one.cheats
  method : other.method = one.method
  carries : other.cartridge.coprocessors = one.cartridge.coprocessors
  few : one.cartridge.coprocessors.length ≤ Cartridge.maxCoprocessors
  origin : reboots → other.configuration = one.configuration ∧ other.cartridge = one.cartridge
  machine : ∃ event, other.machine = one.machine.withEvent event

namespace Console

/-- Both ended alike: with the same fault, or with values that are related. The hosts heard the same. -/
inductive Agree (related : α → α → Prop) : Except Fault α × ω → Except Fault α × ω → Prop
  | broke (fault : Fault) (heard : ω) : Agree related (.error fault, heard) (.error fault, heard)
  | ended {first second : α} (holds : related first second) (heard : ω) : Agree related (.ok first, heard) (.ok second, heard)

theorem Agree.bind {related : α → α → Prop} {final : β → β → Prop} {first second : Run ω α} {next follow : α → Run ω β} {host : ω}
    (agree : Agree related (first host) (second host))
    (rest : ∀ one other (heard : ω), related one other → Agree final (next one heard) (follow other heard)) :
    Agree final ((first >>= next) host) ((second >>= follow) host) := by
  rw [Run.bind_apply, Run.bind_apply]
  generalize first host = ones at agree
  generalize second host = others at agree
  cases agree with
  | broke fault heard => exact .broke fault heard
  | ended holds heard => exact rest _ _ heard holds

theorem Agree.same (run : Run ω α) (host : ω) : Agree Eq (run host) (run host) := by
  obtain ⟨result | fault, heard⟩ := run host
  · exact .broke _ heard
  · exact .ended rfl heard

/-- The same came back, with twins. -/
def Matching (reboots : Prop) (first second : α × Console) : Prop := second.1 = first.1 ∧ Twins reboots first.2 second.2

theorem Twins.matching {reboots : Prop} {one other : Console} (twins : Twins reboots one other) (answer : α) :
    Matching reboots (answer, one) (answer, other) := ⟨rfl, twins⟩

theorem Twins.withMachine {reboots : Prop} {one other : Console} (twins : Twins reboots one other) (machine : Machine) :
    Twins reboots { one with machine } { other with machine } :=
  ⟨twins.cheats, twins.method, twins.carries, twins.few, twins.origin, machine.scheduler.event, rfl⟩

variable {reboots : Prop} {one other : Console} [Host ω] {budget : Nat}

theorem run_agrees (twins : Twins reboots one other) (host : ω) :
    Agree (Twins reboots) (one.run budget host) (other.run budget host) := by
  obtain ⟨cheats, method, carries, few, origin, event, same⟩ := twins
  rw [run_eq, run_eq, cheats, same, Machine.run_withEvent]
  refine (Agree.same _ host).bind fun machine _ heard same => ?_
  subst same
  exact .ended ⟨rfl, method, carries, few, origin, machine.scheduler.event, rfl⟩ heard

theorem runFrames_agrees (twins : Twins reboots one other) (count : Nat) (host : ω) :
    Agree (Twins reboots) (runFrames budget count one host) (runFrames budget count other host) := by
  induction count generalizing one other host with
  | zero => exact .ended twins host
  | succ count ih => exact (run_agrees twins host).bind fun _ _ heard twins => ih twins heard

theorem runToSave_agrees (twins : Twins reboots one other) (host : ω) :
    Agree (Matching reboots) (one.runToSave budget host) (other.runToSave budget host) := by
  obtain ⟨cheats, method, carries, few, origin, event, same⟩ := twins
  rw [runToSave_eq, runToSave_eq, cheats, method, same]
  change Agree _ _ ((Save.runToSave _ _ _ (one.machine.scheduler.withEvent event) one.machine.board >>= _) host)
  rw [Save.runToSave_withEvent Board.carries]
  refine (Agree.same _ host).bind fun driving _ heard same => ?_
  subst same
  exact .ended ⟨rfl, rfl, rfl, carries, few, origin, driving.scheduler.event, rfl⟩ heard

/-- Measuring does not depend on the last event. -/
theorem measure_withEvent (machine : Machine) (event : Event) (portable : Bool) : (machine.withEvent event).measure portable =
    ((machine.measure portable).1, (machine.measure portable).2.withEvent event) := by
  rw [Machine.measure_eq, Machine.measure_eq, Machine.serialize_withEvent]
  obtain ⟨visit, visit_eq⟩ : ∃ visit, machine.serialize portable = visit := ⟨_, rfl⟩
  rw [visit_eq, Visit.map_apply]

theorem snapshotSize_twins (twins : Twins reboots one other) (portable : Bool) :
    Matching reboots (one.snapshotSize portable) (other.snapshotSize portable) := by
  obtain ⟨cheats, method, carries, few, origin, event, same⟩ := twins
  rw [snapshotSize_eq, snapshotSize_eq, same, measure_withEvent]
  obtain ⟨measure, measure_eq⟩ : ∃ measure, one.machine.measure portable = measure := ⟨_, rfl⟩
  rw [measure_eq]
  exact ⟨rfl, cheats, method, carries, few, origin, event, rfl⟩

theorem writeSnapshot_twins (twins : Twins reboots one other) (portable : Bool) (description : String) :
    Matching reboots (one.writeSnapshot portable description) (other.writeSnapshot portable description) := by
  obtain ⟨size, sized⟩ := snapshotSize_twins twins portable
  rw [writeSnapshot_eq, writeSnapshot_eq]
  have unmoved := @Machine.serialize_withEvent
  obtain ⟨visit, visit_eq⟩ : ∃ visit, visit = @Machine.serialize := ⟨_, rfl⟩
  obtain ⟨before, before_eq⟩ : ∃ before, one.snapshotSize portable = before := ⟨_, rfl⟩
  obtain ⟨after, after_eq⟩ : ∃ after, other.snapshotSize portable = after := ⟨_, rfl⟩
  rw [before_eq, after_eq] at sized size ⊢
  obtain ⟨cheats, method, carries, few, origin, event, same⟩ := sized
  rw [← visit_eq] at unmoved ⊢
  simp only
  rw [size, same, unmoved, Visit.map_apply]
  exact ⟨rfl, cheats, method, carries, few, origin, event, rfl⟩

theorem handOver_agrees {first second : Array UInt8 × Console} (matching : Matching reboots first second) {portable : Bool}
    (host : ω) : Agree (Matching reboots) (handOver portable first host) (handOver portable second host) := by
  obtain ⟨data, later⟩ := first
  obtain ⟨_, last⟩ := second
  obtain ⟨rfl, twins⟩ := matching
  obtain ⟨event, matched⟩ := twins.machine
  have frame : last.machine.board.frame = later.machine.board.frame := congrArg (·.board.frame) matched
  simp only [handOver]
  rw [frame]
  exact .ended ⟨rfl, twins⟩ _

theorem save_agrees (twins : Twins reboots one other) (portable : Bool) (description : String) (host : ω) :
    Agree (Matching reboots) (one.save budget portable description host) (other.save budget portable description host) := by
  rw [save_eq, save_eq]
  cases portable with
  | false =>
    rw [if_neg Bool.false_ne_true, if_neg Bool.false_ne_true, pure_bind, pure_bind]
    exact handOver_agrees (writeSnapshot_twins twins false description) host
  | true =>
    rw [if_pos rfl, if_pos rfl, bind_map_left, bind_map_left]
    exact (runToSave_agrees twins host).bind fun _ _ heard matching =>
      handOver_agrees (writeSnapshot_twins matching.2 true description) heard

/-- The machine in a body does not depend on what it is read into. -/
theorem readBody_alike (few : kinds.length ≤ Cartridge.maxCoprocessors) (carries : one.cartridge.coprocessors = kinds)
    (same : other.cartridge.coprocessors = kinds) (seed rest : UInt64) (header : Header) (data : Array UInt8) :
    readBody seed one header data = readBody rest other header data := by
  have headed : Visit.Yields .load Header.byteSize (Serializable.serialize (Header.new 0 false "")) fun _ => True := Header.yields _
  have loading := (headed (Serializer.load data) rfl).2.2
  rw [readBody_accepts, readBody_accepts, carries, same]
  generalize (Serializable.serialize (Header.new 0 false "") (Serializer.load data)).2 = s at loading ⊢
  generalize acceptBody = finish
  have fresh := Machine.new_fresh few (Seeding.ofEntropy one.configuration.entropy seed) one.cartridge.program
  have alike := Machine.new_fresh few (Seeding.ofEntropy other.configuration.entropy rest) other.cartridge.program
  obtain ⟨boot, boot_eq⟩ : ∃ boot, boot = @Machine.power := ⟨_, rfl⟩
  have scheduler : ∀ seeding program again rest, (boot (Machine.new kinds) seeding program).scheduler =
    (boot (Machine.new kinds) again rest).scheduler := by rw [boot_eq]; exact fun _ _ _ _ => rfl
  delta coldBoot
  rw [← boot_eq] at fresh alike ⊢
  have readers : Visit.Alike Eq (Machine.serialize _ header.portable) (Machine.serialize _ header.portable) :=
    fresh.serialize_alike few alike (scheduler _ _ _ _)
  have reading := readers s loading
  exact congrArg finish (Prod.ext reading.1 reading.2.1)

theorem load_agrees (twins : Twins reboots one other) (seed : UInt64)
    (data : Array UInt8) (host : ω) :
    Agree (Matching reboots) (one.load seed data host) (other.load seed data host) := by
  have found : ∀ header, other.bodyOf seed header data = one.bodyOf seed header data := by
    intro header
    obtain ⟨same, twins⟩ := snapshotSize_twins twins header.portable
    rw [bodyOf, bodyOf, same, readBody_alike twins.few twins.carries rfl seed seed]
  have sized := fun portable => (snapshotSize_twins twins portable).2
  obtain ⟨result, notices, ends⟩ := one.load_ends seed data
  rw [ends.load_eq host]
  cases ends with
  | unreadable parsed =>
    rw [(LoadEnds.unreadable parsed).load_eq host]
    exact .ended (twins.matching _) _
  | refused parsed body =>
    rw [(LoadEnds.refused parsed ((found _).trans body)).load_eq host]
    exact .ended ((sized _).matching _) _
  | unsettled parsed body breaks =>
    rw [(LoadEnds.unsettled parsed ((found _).trans body) breaks).load_eq host]
    exact .broke _ _
  | accepted parsed body settles =>
    rw [(LoadEnds.accepted parsed ((found _).trans body) settles).load_eq host]
    exact .ended (((sized _).withMachine _).matching _) _

theorem coldBoot_withEvent (configuration : Configuration) (cartridge : Cartridge) (seed : UInt64) (machine : Machine)
    (event : Event) : coldBoot configuration cartridge seed (machine.withEvent event) =
      coldBoot configuration cartridge seed machine := by
  obtain ⟨power, power_eq⟩ : ∃ power, power = @Board.power := ⟨_, rfl⟩
  delta coldBoot Machine.power
  rw [← power_eq]
  rfl

/-- Power-on starts from the configuration and the cartridge alone, if the machines have the same chips. -/
theorem powerOn_agrees (twins : Twins reboots one other) (again : reboots) (seed : UInt64) (host : ω) :
    Twins reboots (one.powerOn seed host).1 (other.powerOn seed host).1 ∧
      (other.powerOn seed host).2 = (one.powerOn seed host).2 := by
  obtain ⟨cheats, method, carries, few, origin, event, same⟩ := twins
  obtain ⟨configured, holds⟩ := origin again
  have resets := fun configuration cartridge seed => coldBoot_withEvent configuration cartridge seed one.machine event
  obtain ⟨boot, boot_eq⟩ : ∃ boot, boot = @coldBoot := ⟨_, rfl⟩
  delta powerOn
  rw [← boot_eq] at resets ⊢
  simp only [configured, holds, same, resets, cheats, method]
  exact ⟨⟨rfl, rfl, rfl, few, fun _ => ⟨rfl, rfl⟩, _, rfl⟩, trivial⟩

theorem perform_agrees (twins : Twins reboots one other) (operation : Operation)
    (again : ∀ seed, operation = .powerOn seed → reboots) (host : ω) :
    Agree (Matching reboots) (one.perform budget operation host) (other.perform budget operation host) := by
  cases operation with
  | run => exact (run_agrees twins host).bind fun _ _ heard twins => .ended ⟨rfl, twins⟩ heard
  | runFrames count => exact (runFrames_agrees twins count host).bind fun _ _ heard twins => .ended ⟨rfl, twins⟩ heard
  | runToSave =>
    exact (runToSave_agrees twins host).bind fun _ _ heard matching => .ended ⟨congrArg Answer.report matching.1, matching.2⟩ heard
  | save portable description =>
    exact (save_agrees twins portable description host).bind fun _ _ heard matching =>
      .ended ⟨congrArg Answer.snapshot matching.1, matching.2⟩ heard
  | measure portable =>
    have sized := snapshotSize_twins twins portable
    obtain ⟨sizing, sizing_eq⟩ : ∃ sizing, sizing = @snapshotSize := ⟨_, rfl⟩
    rw [perform, perform]
    rw [← sizing_eq] at sized ⊢
    exact .ended ⟨congrArg Answer.size sized.1, sized.2⟩ host
  | load seed data =>
    exact (load_agrees twins seed data host).bind fun _ _ heard matching => .ended ⟨congrArg Answer.loaded matching.1, matching.2⟩ heard
  | addCheat cheat =>
    obtain ⟨cheats, method, carries, few, origin, machine⟩ := twins
    exact .ended ⟨rfl, congrArg (· ++ [cheat]) cheats, method, carries, few, origin, machine⟩ host
  | clearCheats => exact .ended ⟨rfl, rfl, twins.method, twins.carries, twins.few, twins.origin, twins.machine⟩ host
  | powerOn seed =>
    obtain ⟨twins, same⟩ := powerOn_agrees twins (again seed rfl) seed host
    obtain ⟨boot, boot_eq⟩ : ∃ boot, boot = @powerOn ω _ := ⟨_, rfl⟩
    rw [perform, perform]
    rw [← boot_eq] at twins same ⊢
    change Agree _ (.ok (Answer.done, (boot seed one host).1), (boot seed one host).2)
      (.ok (Answer.done, (boot seed other host).1), (boot seed other host).2)
    rw [same]
    exact .ended ⟨rfl, twins⟩ _

/-- Twins answer any operations alike, and are twins after them. -/
theorem performAll_agrees (operations : List Operation) (again : ∀ seed, .powerOn seed ∈ operations → reboots)
    (twins : Twins reboots one other) (host : ω) :
    Agree (Matching reboots) (one.performAll budget operations host) (other.performAll budget operations host) := by
  induction operations generalizing one other host with
  | nil => exact .ended ⟨rfl, twins⟩ host
  | cons operation rest ih =>
    refine (perform_agrees twins operation (fun seed same => again seed (same ▸ List.mem_cons_self)) host).bind ?_
    intro (answer, later) (_, last) heard ⟨same, twins⟩
    obtain rfl : _ = answer := same
    refine (ih (fun seed listed => again seed (List.mem_cons_of_mem _ listed)) twins heard).bind ?_
    intro (answers, later) (_, last) heard ⟨same, twins⟩
    obtain rfl : _ = answers := same
    exact .ended ⟨rfl, twins⟩ heard

end Console
end MultiClock
