import MultiClock.Proofs.Acceptance
import MultiClock.Proofs.ByteAccounts
import MultiClock.Proofs.Reachability

/-! All counts of a snapshot's bytes agree. What a machine measures, writes, tells in the header and reads back is one
number, which depends on its coprocessors and on whether the snapshot is portable. No register, clock, suspended chip or
byte of a loaded snapshot has a part in it, and whether they make sense does not matter. -/

namespace MultiClock

open Visit Snapshot

variable {mode : Serializer.Mode} {kinds : List CoprocessorKind} {stack portable : Bool}

def Coprocessor.kind : Coprocessor → CoprocessorKind
  | multiplier _ => .multiplier
  | rtc _ => .rtc

theorem Coprocessor.visit_size (stack : Bool) (chip : Coprocessor) :
    Yields mode (visitSize stack chip.kind) (Chip.visit stack chip) fun later => later.kind = chip.kind := by
  cases chip with
  | multiplier unit =>
    rw [visit_multiplier]
    exact .map _ ((unit.visit_yields stack).mono fun _ _ => rfl)
  | rtc clock =>
    rw [visit_rtc]
    exact .map _ ((clock.visit_yields stack).mono fun _ _ => rfl)

namespace Board

/-- A board with these coprocessors, whatever they and the other chips are at. -/
structure Built (kinds : List CoprocessorKind) (board : Board) : Prop where
  latches : board.bus.coprocessors.size = kinds.length
  chips : board.coprocessors.toList.map Coprocessor.kind = kinds

variable {board : Board}

theorem Built.size (built : board.Built kinds) : board.coprocessors.size = kinds.length := by
  have same := congrArg List.length built.chips
  simpa using same

theorem Built.kind {position : Nat} {chip : Coprocessor} (built : board.Built kinds)
    (found : board.coprocessors[position]? = some chip) : kinds[position]? = some chip.kind := by
  rw [← built.chips, List.getElem?_map, Array.getElem?_toList, found, Option.map_some]

theorem Built.withCoprocessor {position : Nat} {chip later : Coprocessor} (built : board.Built kinds)
    (found : board.coprocessors[position]? = some chip) (same : later.kind = chip.kind) :
    (board.withCoprocessor position later).Built kinds := by
  refine ⟨built.latches, ?_⟩
  have kept : (board.coprocessors.toList.set position later).map Coprocessor.kind = board.coprocessors.toList.map Coprocessor.kind := by
    apply List.ext_getElem?
    intro index
    rw [List.map_set, List.getElem?_set, List.getElem?_map, Array.getElem?_toList]
    split
    next here =>
      subst here
      rw [found, List.length_map, Array.length_toList, if_pos (Array.getElem?_eq_some_iff.mp found).1, same]
      rfl
    next => rfl
  rw [Board.withCoprocessor, Array.toList_setIfInBounds, kept, built.chips]

theorem Built.serializeChip (built : board.Built kinds) {id : ThreadId} (present : id ∈ board.threads) :
    Yields mode (visitSize kinds stack id) (board.serializeChip id stack) (Built kinds) := by
  have anything : Permitted .any mode := nofun
  cases id with
  | cpu => exact .of_size (.bind (board.cpu.visit_yields stack 0 anything) fun _ _ => .pure ⟨built.latches, built.chips⟩) rfl
  | smp => exact .of_size (.bind (board.smp.visit_yields stack) fun _ _ => .pure ⟨built.latches, built.chips⟩) rfl
  | ppu => exact .of_size (.bind (board.ppu.visit_yields stack anything) fun _ _ => .pure ⟨built.latches, built.chips⟩) rfl
  | coprocessor index =>
    obtain ⟨chip, found⟩ : ∃ chip, board.coprocessors[index.toNat]? = some chip :=
      ⟨_, Array.getElem?_eq_getElem (index_of_threads present)⟩
    have size : visitSize kinds stack (.coprocessor index) = Coprocessor.visitSize stack chip.kind := by
      rw [visitSize, built.kind found]
      rfl
    rw [serializeChip_coprocessor found]
    exact .of_size (.bind (Coprocessor.visit_size stack _) fun _ same => .pure (built.withCoprocessor found same)) size.symm

end Board

namespace Machine
variable {machine : Machine}

/-- A machine with these coprocessors and a thread for each chip, in any state. -/
structure Built (kinds : List CoprocessorKind) (machine : Machine) : Prop where
  threads : machine.scheduler.threads.size = 3 + kinds.length
  board : machine.board.Built kinds

theorem Built.serializeThread {id : ThreadId} (built : machine.Built kinds) (present : id ∈ threadsOf kinds.length) :
    Yields mode (12 + Board.visitSize kinds stack id) (serializeThread stack machine id) (Built kinds) := by
  obtain ⟨scheduler, board⟩ := machine
  obtain ⟨thread, found⟩ := (Scheduler.found_of_lt (built.threads ▸ mem_threadsOf.mp present) :
    ∃ thread, scheduler.thread? id = some thread)
  have listed : id ∈ board.threads := by
    rw [Board.threads, built.board.size]
    exact present
  apply Yields.bind (Scheduler.serializeThread_yields found)
  intro _ passed
  obtain ⟨value, rfl, _⟩ := passed
  refine .of_size (.bind (built.board.serializeChip listed) fun chips kept => .pure ⟨?_, kept⟩) rfl
  exact (Scheduler.size_modifyThread _ _ _).trans built.threads

/-- Every pass over a machine counts the same bytes. -/
theorem Built.serialize (built : machine.Built kinds) (portable : Bool) :
    Yields mode (visitSize kinds portable) (machine.serialize portable) (Built kinds) := by
  obtain ⟨scheduler, ⟨bus, cpu, smp, ppu, coprocessors, frame⟩⟩ := machine
  have latches : bus.coprocessors.size = kinds.length := built.board.latches
  simp only [Machine.serialize, visitSize]
  refine .bind (.word _) fun count _ => .bind (latches ▸ bus.yields) fun memory same => ?_
  have start : Built kinds ⟨scheduler, ⟨memory, cpu, smp, ppu, coprocessors, count⟩⟩ :=
    ⟨built.threads, ⟨same, built.board.chips⟩⟩
  have threads : (⟨memory, cpu, smp, ppu, coprocessors, count⟩ : Board).threads = threadsOf kinds.length := by
    rw [Board.threads, threadsOf, start.board.size]
  rw [threads]
  refine .bind (.fold (Built kinds) (fun _ _ => True) _ (fun id present machine built =>
    (built.serializeThread present).mono fun _ kept => ⟨kept, trivial, fun _ _ => trivial⟩) start) ?_
  intro later visited
  obtain ⟨built, _⟩ := visited
  cases portable with
  | true => exact .pure built
  | false =>
    refine .of_size (.bind later.scheduler.serializeStack_yields fun last restacked => .pure ⟨?_, built.board⟩) ?_
    · rw [Scheduler.size_of_shape restacked.shape, built.threads]
    · rw [built.threads]
      rfl

theorem Built.measured (built : machine.Built kinds) (portable : Bool) :
    (machine.measure portable).1 = visitSize kinds portable ∧ (machine.measure portable).2.Built kinds := by
  have yields := built.serialize portable Serializer.measure rfl
  rw [measure_eq]
  generalize machine.serialize portable Serializer.measure = result at yields ⊢
  obtain ⟨later, s⟩ := result
  obtain ⟨kept, size, _⟩ := yields
  exact ⟨size.trans (Nat.zero_add _), kept⟩

end Machine
/-- A machine that may run is one of those. -/
theorem Machine.Sound.built {loads : Loads} {machine : Machine} (sound : machine.Sound loads kinds) : machine.Built kinds := by
  refine ⟨Scheduler.size_of_wiring sound.wired, sound.fits.latches, ?_⟩
  apply List.ext_getElem?
  intro position
  rw [List.getElem?_map, Array.getElem?_toList]
  cases found : machine.board.coprocessors[position]? with
  | none =>
    have outside := Array.getElem?_eq_none_iff.mp found
    rw [Option.map_none, List.getElem?_eq_none (sound.fits.chips ▸ outside)]
  | some chip =>
    obtain ⟨kind, listed, fit⟩ := sound.fits.coprocessors position chip found
    rw [listed, Option.map_some]
    cases chip with
    | multiplier => rw [fit.1]; rfl
    | rtc => rw [fit.1]; rfl

namespace Console
variable {console : Console}

/-- How a reader comes out of a load, after the header and the body. -/
def loaded (reader : Machine) (portable : Bool) (data : Array UInt8) : Serializer :=
  (reader.serialize portable).after (Visit.after (Serializable.serialize (Header.new 0 false "")) (Serializer.load data))

/-- A load passes over the size of a snapshot, whatever the bytes are, and goes past their end only if they are fewer. -/
theorem loaded_counts {reader : Machine} (built : reader.Built kinds) (portable : Bool) (data : Array UInt8) :
    (loaded reader portable data).cursor = Header.byteSize + Machine.visitSize kinds portable ∧
      ((loaded reader portable data).overrun = true ↔ data.size < Header.byteSize + Machine.visitSize kinds portable) := by
  have passed := Accounts.loads (Header.accounts (Header.new 0 false "")) (reader.serialize_accounts portable)
    (Header.yields _) (built.serialize portable) data
  exact passed

/-- A load finds a snapshot truncated exactly if it is shorter than the snapshots of the cartridge. -/
theorem readBody_truncated (few : kinds.length ≤ Cartridge.maxCoprocessors) (carries : console.cartridge.coprocessors = kinds)
    (seed : UInt64) (header : Header) (data : Array UInt8) : readBody seed console header data = .error .truncated ↔
      data.size < Header.byteSize + Machine.visitSize kinds header.portable := by
  obtain ⟨base, base_eq⟩ : ∃ base, coldBoot console.configuration console.cartridge seed
    (Machine.new console.cartridge.coprocessors) = base := ⟨_, rfl⟩
  have fresh : base.Fresh kinds := by
    rw [← base_eq, carries]
    exact Machine.new_fresh few (Seeding.ofEntropy console.configuration.entropy seed) console.cartridge.program
  have passed := (loaded_counts fresh.sound.built header.portable data).2
  rw [loaded, after, after] at passed
  rw [readBody_accepts, base_eq, ← passed]
  generalize base.serialize header.portable _ = last
  obtain ⟨machine, s⟩ := last
  simp only [acceptBody]
  cases s.overrun <;> cases s.invalid <;> simp [pure, Except.pure, throw, throwThe, MonadExceptOf.throw]

/-- What a console writes after its machine was measured. -/
theorem writeSnapshot_of_sized {size : Nat} {machine : Machine} {portable : Bool}
    (sized : console.snapshotSize portable = (size, { console with machine })) (description : String) :
    (console.writeSnapshot portable description).1 = (machine.serialize portable
      (Serializable.serialize (Header.new size portable description) Serializer.save).2).2.buffer := by
  obtain ⟨visit, visit_eq⟩ : ∃ visit, visit = @Machine.serialize := ⟨_, rfl⟩
  rw [writeSnapshot_eq, sized, ← visit_eq]

/-- Sizes agree: for a machine in any state at all, what is measured, what is written, what the header tells and what
any reader of the same coprocessors passes over is the same number of bytes. Any data of that size is passed over
exactly, and shorter data is what a load refuses as truncated. -/
theorem sizes_agree (few : kinds.length ≤ Cartridge.maxCoprocessors) (built : console.machine.Built kinds) (portable : Bool)
    (description : String) :
    (console.snapshotSize portable).1 = Header.byteSize + Machine.visitSize kinds portable ∧
      (console.writeSnapshot portable description).1.size = Header.byteSize + Machine.visitSize kinds portable ∧
      (∃ header, Header.parse (console.writeSnapshot portable description).1 = .ok header ∧
        header.size.toNat = Header.byteSize + Machine.visitSize kinds portable ∧ header.portable = portable) ∧
      (∀ (reader : Machine) (data : Array UInt8), reader.Built kinds →
        (loaded reader portable data).cursor = Header.byteSize + Machine.visitSize kinds portable ∧
          ((loaded reader portable data).overrun = true ↔ data.size < Header.byteSize + Machine.visitSize kinds portable)) ∧
      ∀ (other : Console) (seed : UInt64) (header : Header) (data : Array UInt8), other.cartridge.coprocessors = kinds →
        header.portable = portable → (readBody seed other header data = .error .truncated ↔
          data.size < Header.byteSize + Machine.visitSize kinds portable) := by
  have small : Header.byteSize + Machine.visitSize kinds portable < 2 ^ 32 := by
    have bound := Machine.visitSize_lt few portable
    simp only [Header.byteSize]
    omega
  obtain ⟨measured, kept⟩ := built.measured portable
  have sized := snapshotSize_eq portable console
  rw [measured] at sized
  obtain ⟨total, total_eq⟩ : ∃ total, Header.byteSize + Machine.visitSize kinds portable = total := ⟨_, rfl⟩
  rw [total_eq] at small sized
  rw [writeSnapshot_of_sized sized, sized]
  obtain ⟨first, heads, parses⟩ := Header.transfers (Header.new total portable description) (Header.new 0 false "")
  obtain ⟨size, body, written⟩ := Accounts.saves heads (Machine.serialize_accounts _ portable) (Header.yields _)
    (kept.serialize portable)
  have holds : (Serializer.load (first ++ body).toArray).Holds first := ⟨[], body, by simp [Serializer.load], rfl⟩
  refine ⟨total_eq.symm, size, ⟨Header.new total portable description, ?_, (Header.new_size small).trans total_eq.symm,
    Header.new_portable⟩, fun reader data built => loaded_counts built portable data, ?_⟩
  · rw [written]
    exact parse_eq parses holds Header.new_signature
  · intro other seed header data carries flag
    rw [← flag]
    exact readBody_truncated few carries seed header data

end Console

/-- The machine in a state that no run leaves behind: far too many units of catching up, and control with a chip that does
not exist. -/
def Machine.scattered (machine : Machine) : Machine :=
  ⟨{ machine.scheduler with active := .coprocessor 200 },
    { machine.board with cpu := { machine.board.cpu with catchupUnits := 0xFFFFFFFF } }⟩

theorem Machine.Built.scattered {machine : Machine} (built : machine.Built kinds) : machine.scattered.Built kinds :=
  ⟨built.threads, built.board.latches, built.board.chips⟩

theorem Console.sizes_agree_scattered :
    (snapshotSize true { sample with machine := sample.machine.scattered }).1 = 131762 ∧
      (writeSnapshot true "anything" { sample with machine := sample.machine.scattered }).1.size = 131762 ∧
      ∀ data : Array UInt8, data.size = 131762 → (loaded sample.machine true data).cursor = data.size ∧
        (loaded sample.machine true data).overrun = false := by
  have built : sample.machine.Built [.multiplier, .rtc] := sample_fresh.sound.built
  have total : Header.byteSize + Machine.visitSize [.multiplier, .rtc] true = 131762 := rfl
  have scattered : ({ sample with machine := sample.machine.scattered } : Console).machine.Built [.multiplier, .rtc] :=
    built.scattered
  obtain ⟨measured, written, _, loads, _⟩ := sizes_agree (by decide) scattered true "anything"
  rw [total] at measured written
  refine ⟨measured, written, fun data size => ?_⟩
  obtain ⟨cursor, overrun⟩ := loads sample.machine data built
  rw [total] at cursor overrun
  refine ⟨cursor.trans size.symm, Bool.eq_false_iff.mpr fun marked => ?_⟩
  have short := overrun.mp marked
  omega

end MultiClock
