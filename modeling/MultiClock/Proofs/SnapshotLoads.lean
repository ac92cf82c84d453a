import MultiClock.Console
import MultiClock.Proofs.LastEvent
import MultiClock.Proofs.MachineCopies
import MultiClock.Proofs.Outcome
import MultiClock.Proofs.PowerOn
import MultiClock.Proofs.Settlement

/-! Writing and loading whole snapshots. Any snapshot that is accepted leaves a sound machine. What a sound
machine wrote is accepted by every machine of the same coprocessors, which then equals the writer. -/

namespace MultiClock

open Visit Snapshot

variable {loads : Loads} {kinds : List CoprocessorKind} {mode : Serializer.Mode}

namespace Snapshot.Header

theorem yields (header : Header) : Yields mode byteSize (Serializable.serialize header) fun _ => True := by
  exact .of_size (.bind (.word _) fun _ _ => .bind (.word _) fun _ _ => .bind (.bytes _) fun _ _ => .bind (.bytes _) fun _ _ =>
    .bind (.boolean _) fun _ _ => .bind (.boolean _) fun _ _ => .pure trivial) rfl

theorem transfers (header base : Header) :
    Transfers (Serializable.serialize header) (Serializable.serialize base) header header :=
  .bind (.word _ _) (.bind (.word _ _) (.bind (.bytes _ _) (.bind (.bytes _ _) (.bind (.boolean _ _)
    (.bind (.boolean _ _) (.pure _ _))))))

variable {size : Nat} {portable : Bool} {description : String}

theorem new_portable : (new size portable description).portable = portable := rfl

theorem new_signature : (new size portable description).signature = signatureWord := rfl

theorem new_size (small : size < 2 ^ 32) : (new size portable description).size.toNat = size := by
  rw [new, UInt32.toNat_ofNat', Nat.mod_eq_of_lt small]

theorem new_checkVersion : (new size portable description).checkVersion = .ok () := by
  rw [checkVersion, new, if_pos rfl]

end Snapshot.Header

/-- Snapshots are far smaller than a size that a header can tell. -/
theorem Machine.visitSize_lt (few : kinds.length ≤ Cartridge.maxCoprocessors) (portable : Bool) :
    Machine.visitSize kinds portable < 0x1000000 := by
  have chip : ∀ id, 12 + Board.visitSize kinds (!portable) id ≤ 0x20000 := by
    intro id
    cases id with
    | cpu | smp | ppu =>
      simp only [Board.visitSize]
      split <;> omega
    | coprocessor index =>
      simp only [Board.visitSize]
      cases kinds[index.toNat]? with
      | none => simp
      | some kind => cases kind <;> simp only [Option.map_some, Option.getD_some, Coprocessor.visitSize] <;> split <;> omega
  -- No chip has more than 128 KiB, whichever it is, so the number of threads is all that counts.
  have chips : ∀ ids : List ThreadId, (ids.map fun id => 12 + Board.visitSize kinds (!portable) id).sum ≤ ids.length * 0x20000 := by
    intro ids
    induction ids with
    | nil => exact Nat.le_refl 0
    | cons id rest ih =>
      have first := chip id
      simp only [List.map_cons, List.sum_cons, List.length_cons]
      omega
  have threads := chips (threadsOf kinds.length)
  have count : (threadsOf kinds.length).length = 3 + kinds.length := by
    simp only [threadsOf, List.length_cons, List.length_map, List.length_range]
    omega
  simp only [Cartridge.maxCoprocessors] at few
  rw [count] at threads
  simp only [visitSize, Bus.visitSize]
  split <;> omega

theorem Snapshot.Header.new_visitSize (few : kinds.length ≤ Cartridge.maxCoprocessors) (portable : Bool) (description : String) :
    (Header.new (Header.byteSize + Machine.visitSize kinds portable) portable description).size.toNat =
      Header.byteSize + Machine.visitSize kinds portable := by
  have bound := Machine.visitSize_lt few portable
  refine Header.new_size ?_
  simp only [Header.byteSize]
  omega

/- In the next proofs the visitors are hidden behind names, or else the checker would run them. -/

theorem Machine.measure_eq (machine : Machine) (portable : Bool) : machine.measure portable =
    ((machine.serialize portable Serializer.measure).2.size, (machine.serialize portable Serializer.measure).1) := by
  have unfolded : @Machine.measure = fun machine portable =>
      ((machine.serialize portable Serializer.measure).2.size, (machine.serialize portable Serializer.measure).1) := by
    delta Machine.measure
    obtain ⟨visit, same⟩ : ∃ visit, visit = @Machine.serialize := ⟨_, rfl⟩
    rw [← same]
    rfl
  exact congrFun (congrFun unfolded machine) portable

namespace Console

theorem snapshotSize_eq (portable : Bool) (console : Console) : console.snapshotSize portable =
    (Header.byteSize + (console.machine.measure portable).1,
      { console with machine := (console.machine.measure portable).2 }) := by
  have unfolded : @snapshotSize = fun portable console => (Header.byteSize + (console.machine.measure portable).1,
      { console with machine := (console.machine.measure portable).2 }) := by
    delta snapshotSize
    obtain ⟨measure, same⟩ : ∃ measure, measure = @Machine.measure := ⟨_, rfl⟩
    rw [← same]
  exact congrFun (congrFun unfolded portable) console

theorem writeSnapshot_eq (portable : Bool) (description : String) (console : Console) :
    console.writeSnapshot portable description =
      let sized := console.snapshotSize portable
      let head := Serializable.serialize (Header.new sized.1 portable description) Serializer.save
      let written := sized.2.machine.serialize portable head.2
      (written.2.buffer, { sized.2 with machine := written.1 }) := by
  have unfolded : @writeSnapshot = fun portable description console =>
      let sized := console.snapshotSize portable
      let head := Serializable.serialize (Header.new sized.1 portable description) Serializer.save
      let written := sized.2.machine.serialize portable head.2
      (written.2.buffer, { sized.2 with machine := written.1 }) := by
    delta writeSnapshot
    obtain ⟨sizing, sizing_eq⟩ : ∃ sizing, sizing = @snapshotSize := ⟨_, rfl⟩
    obtain ⟨heading, heading_eq⟩ : ∃ heading, heading = @Serializable.serialize Header _ := ⟨_, rfl⟩
    obtain ⟨visit, visit_eq⟩ : ∃ visit, visit = @Machine.serialize := ⟨_, rfl⟩
    rw [← sizing_eq, ← heading_eq, ← visit_eq]
    rfl
  exact congrFun (congrFun (congrFun unfolded portable) description) console

theorem measured (portable : Bool) {machine : Machine} (sound : machine.Sound loads kinds) :
    (machine.measure portable).1 = Machine.visitSize kinds portable ∧
      Machine.Visited .measure loads kinds portable machine (machine.measure portable).2 := by
  have permitted : Permitted loads .measure := fun _ => by decide
  have yields := Machine.serialize_yields permitted portable sound Serializer.measure rfl
  rw [Machine.measure_eq]
  generalize machine.serialize portable Serializer.measure = result at yields ⊢
  obtain ⟨later, s⟩ := result
  obtain ⟨visited, size, _⟩ := yields
  exact ⟨size.trans (Nat.zero_add _), visited⟩

/-- The bytes of a machine whose visitor keeps it. -/
theorem written {portable : Bool} {description : String} {console : Console} {size : Nat} {machine : Machine}
    {first body : List UInt8} (sized : console.snapshotSize portable = (size, { console with machine }))
    (header : (Serializable.serialize (Header.new size portable description)).Writes
      (Header.new size portable description) first)
    (writes : (machine.serialize portable).Writes machine body) :
    console.writeSnapshot portable description = ((first ++ body).toArray, { console with machine }) := by
  have saving : (Serializer.save.wrote first).mode ≠ .load := by simp [Serializer.wrote, Serializer.save]
  rw [writeSnapshot_eq, sized]
  simp only
  rw [header Serializer.save (by decide), writes _ saving]
  simp [Serializer.wrote, Serializer.save]

theorem parse_eq {header : Header} {first : List UInt8} {data : Array UInt8}
    (reads : (Serializable.serialize (Header.new 0 false "")).Reads header first)
    (holds : (Serializer.load data).Holds first) (signed : header.signature = Header.signatureWord) :
    Header.parse data = .ok header := by
  rw [Header.parse, reads (Serializer.load data) rfl holds]
  simp only
  rw [if_neg (fun refused => refused.2 signed)]
  exact if_neg Bool.false_ne_true

/-- How a body is read: the visitor of a machine right after power-on is run over it. -/
def acceptBody (read : Machine × Serializer) : Except SnapshotError Machine :=
  if read.2.overrun then throw .truncated else
    match read.2.invalid with
    | some field => throw (.invalidValue field)
    | none => return read.1

theorem readBody_accepts (seed : UInt64) (console : Console) (header : Header) (data : Array UInt8) :
    readBody seed console header data = acceptBody ((coldBoot console.configuration console.cartridge seed
      (Machine.new console.cartridge.coprocessors)).serialize header.portable
        (Serializable.serialize (Header.new 0 false "") (Serializer.load data)).2) := by
  obtain ⟨visit, visit_eq⟩ : ∃ visit, visit = @Machine.serialize := ⟨_, rfl⟩
  obtain ⟨heading, heading_eq⟩ : ∃ heading, heading = @Serializable.serialize Header _ := ⟨_, rfl⟩
  obtain ⟨reading, reading_eq⟩ : ∃ reading, reading = @readBody := ⟨_, rfl⟩
  rw [← reading_eq, ← visit_eq, ← heading_eq]
  delta readBody at reading_eq
  rw [← visit_eq, ← heading_eq] at reading_eq
  rw [reading_eq]
  rfl

theorem acceptBody_eq_ok {read : Machine × Serializer} {machine : Machine} (accepted : acceptBody read = .ok machine) :
    machine = read.1 := by
  unfold acceptBody at accepted
  split at accepted
  next => cases accepted
  next =>
    split at accepted
    next => cases accepted
    next =>
      cases accepted
      rfl

theorem readBody_eq {seed : UInt64} {console : Console} {header : Header} {first body : List UInt8} {machine : Machine}
    (heads : (Serializable.serialize (Header.new 0 false "")).Reads header first)
    (reads : ((coldBoot console.configuration console.cartridge seed
      (Machine.new console.cartridge.coprocessors)).serialize header.portable).Reads machine body) :
    readBody seed console header (first ++ body).toArray = .ok machine := by
  have holds : (Serializer.load (first ++ body).toArray).Holds (first ++ body) :=
    ⟨[], [], by simp [Serializer.load], rfl⟩
  rw [readBody_accepts, heads _ rfl holds.left]
  generalize (coldBoot console.configuration console.cartridge seed
    (Machine.new console.cartridge.coprocessors)).serialize header.portable = visit at reads
  simp only
  rw [reads _ rfl holds.right]
  rfl

/-- A machine whose chips are all at their synchronization points, after its threads were settled. -/
theorem settleLoaded_eq {portable : Bool} {scheduler : Scheduler} {board : Board} (outside : scheduler.entered = false)
    (some_thread : 0 < scheduler.threads.size) : settleLoaded portable ⟨scheduler, board⟩ =
      .ok ⟨if portable then { scheduler.parkAll with active := .cpu } else scheduler, board⟩ := by
  cases portable with
  | false => rfl
  | true =>
    have present : ¬ scheduler.parkAll.threads.size ≤ ThreadId.cpu.index := by
      simp only [Scheduler.parkAll, Array.size_map, ThreadId.index]
      omega
    have parked : scheduler.parkAll.entered = false := outside
    simp only [settleLoaded, Scheduler.setActive, parked, Bool.false_eq_true, if_false, if_neg present]
    rfl

/-- What the bytes after an accepted header hold, compared with the size that was just measured. -/
def bodyOf (console : Console) (seed : UInt64) (header : Header) (data : Array UInt8) : Except SnapshotError Machine :=
  checkHeader header (console.snapshotSize header.portable).1 data *> readBody seed (console.snapshotSize header.portable).2 header data

/-- How a load ends, and what the host is told: without a header the machine is not even measured, and what is refused later
leaves it measured. -/
inductive LoadEnds (console : Console) (seed : UInt64) (data : Array UInt8) :
    Except Fault (Except SnapshotError Unit × Console) → List Notice → Prop
  | unreadable {problem : SnapshotError} (parsed : Header.parse data = .error problem) :
      LoadEnds console seed data (.ok (.error problem, console)) []
  | refused {header : Header} {problem : SnapshotError} (parsed : Header.parse data = .ok header)
      (found : console.bodyOf seed header data = .error problem) :
      LoadEnds console seed data (.ok (.error problem, (console.snapshotSize header.portable).2)) []
  | unsettled {header : Header} {machine : Machine} {fault : Fault} (parsed : Header.parse data = .ok header)
      (found : console.bodyOf seed header data = .ok machine) (breaks : settleLoaded header.portable machine = .error fault) :
      LoadEnds console seed data (.error fault) []
  | accepted {header : Header} {machine settled : Machine} (parsed : Header.parse data = .ok header)
      (found : console.bodyOf seed header data = .ok machine) (settles : settleLoaded header.portable machine = .ok settled) :
      LoadEnds console seed data (.ok (.ok (), { (console.snapshotSize header.portable).2 with machine := settled }))
        [.loaded header.portable header.descriptionText settled.board.frame]

theorem load_ends (console : Console) (seed : UInt64) (data : Array UInt8) : ∃ result notices, console.LoadEnds seed data result notices := by
  cases parsed : Header.parse data with
  | error problem => exact ⟨_, _, .unreadable parsed⟩
  | ok header =>
    cases found : console.bodyOf seed header data with
    | error problem => exact ⟨_, _, .refused parsed found⟩
    | ok machine =>
      cases settles : settleLoaded header.portable machine with
      | error fault => exact ⟨_, _, .unsettled parsed found settles⟩
      | ok settled => exact ⟨_, _, .accepted parsed found settles⟩

variable [Host ω]

theorem LoadEnds.load_eq {console : Console} {seed : UInt64} {data : Array UInt8}
    {result : Except Fault (Except SnapshotError Unit × Console)} {notices : List Notice}
    (ends : console.LoadEnds seed data result notices) (host : ω) :
    console.load seed data host = (result, notices.foldr Host.notice host) := by
  obtain ⟨sizing, sizing_eq⟩ : ∃ sizing, sizing = @snapshotSize := ⟨_, rfl⟩
  obtain ⟨reading, reading_eq⟩ : ∃ reading, reading = @readBody := ⟨_, rfl⟩
  obtain ⟨settling, settling_eq⟩ : ∃ settling, settling = @settleLoaded := ⟨_, rfl⟩
  delta load
  cases ends with
  | unreadable parsed =>
    rw [parsed]
    rfl
  | refused parsed found =>
    rw [bodyOf, ← sizing_eq, ← reading_eq] at found
    rw [← sizing_eq, ← reading_eq, ← settling_eq, parsed]
    simp only [found]
    rfl
  | unsettled parsed found settles =>
    rw [bodyOf, ← sizing_eq, ← reading_eq] at found
    rw [← settling_eq] at settles
    rw [← sizing_eq, ← reading_eq, ← settling_eq, parsed]
    simp only [found, settles]
    rfl
  | accepted parsed found settles =>
    rw [bodyOf, ← sizing_eq, ← reading_eq] at found
    rw [← settling_eq] at settles
    rw [← sizing_eq, ← reading_eq, ← settling_eq, parsed]
    simp only [found, settles]
    rfl

/-- How a snapshot is loaded whose header and body are in order. -/
theorem load_eq {seed : UInt64} {console sized : Console} {header : Header} {first body : List UInt8}
    {machine settled : Machine} {measured : Nat} {portable : Bool} (told_portable : header.portable = portable)
    (size : console.snapshotSize portable = (measured, sized)) (configured : sized.configuration = console.configuration)
    (carries : sized.cartridge = console.cartridge)
    (heads : (Serializable.serialize (Header.new 0 false "")).Reads header first) (signed : header.signature = Header.signatureWord)
    (reads : ((coldBoot console.configuration console.cartridge seed
      (Machine.new console.cartridge.coprocessors)).serialize portable).Reads machine body)
    (told : header.size.toNat = (first ++ body).length) (same : measured = (first ++ body).length)
    (built : header.checkVersion = .ok ()) (settles : settleLoaded portable machine = .ok settled) (host : ω) :
    console.load seed (first ++ body).toArray host =
      (.ok (.ok (), { sized with machine := settled }),
        Host.notice (.loaded portable header.descriptionText settled.board.frame) host) := by
  subst told_portable
  have holds : (Serializer.load (first ++ body).toArray).Holds (first ++ body) :=
    ⟨[], [], by simp [Serializer.load], rfl⟩
  have checked : checkHeader header measured (first ++ body).toArray = .ok () := by
    have length : (first ++ body).toArray.size = (first ++ body).length := rfl
    rw [checkHeader, if_neg (by rw [length]; exact not_not_intro told), if_neg (by rw [length]; exact not_not_intro same)]
    exact built
  rw [← configured, ← carries] at reads
  have found : console.bodyOf seed header (first ++ body).toArray = .ok machine := by
    have body_read : readBody seed sized header (first ++ body).toArray = .ok machine := readBody_eq heads reads
    rw [bodyOf, size]
    simp only [checked, body_read]
    rfl
  have ends := (LoadEnds.accepted (parse_eq heads holds.left signed) found settles).load_eq host
  rw [size] at ends
  exact ends

end Console

namespace Machine

variable {before after : Machine} {portable : Bool}

theorem Outside.visited (outside : before.Outside) (visited : Visited mode loads kinds portable before after) : after.Outside :=
  ⟨visited.entered.trans outside.entered, visited.control.trans outside.mode⟩

theorem Directed.visited (directed : before.Directed) (wired : before.scheduler.shape = wiring kinds)
    (visited : Visited mode loads kinds portable before after) : after.Directed := by
  have size : after.scheduler.threads.size = before.scheduler.threads.size :=
    (Scheduler.size_of_wiring visited.wired).trans (Scheduler.size_of_wiring wired).symm
  refine ⟨?_, fun target asked => ?_⟩
  · cases portable with
    | false => exact visited.active rfl
    | true =>
      rw [(visited.untouched rfl).1, size]
      exact directed.active
  · rw [size]
    exact directed.target target (visited.transfer ▸ asked)

theorem Settled.visited (settled : before.Settled) (writing : mode ≠ .load)
    (visited : Visited mode loads kinds true before after) : after.Settled where
  rested id := visited.rested writing id (settled.rested id)
  parked id state found := settled.parked id state (visited.states writing id ▸ found)
  active := (visited.untouched rfl).1.trans settled.active
  clear := (visited.untouched rfl).2.trans settled.clear
  level id := visited.times writing id (settled.level id)

/-- Parking threads that took all clocks yields the threads that they were taken from. -/
theorem parked_threads (few : kinds.length ≤ Cartridge.maxCoprocessors) {machine : Machine} (sound : machine.Sound .own kinds)
    (settled : machine.Settled) {threads : Array Thread} (same : SameClocks machine.scheduler.threads threads) :
    threads.map Thread.park = machine.scheduler.threads := by
  refine Array.ext_getElem? fun position => ?_
  rw [Array.getElem?_map]
  cases found : machine.scheduler.threads[position]? with
  | none =>
    have outside := Array.getElem?_eq_none_iff.mp found
    rw [Array.getElem?_eq_none (same.1 ▸ outside), Option.map_none]
  | some thread =>
    have inside := (Array.getElem?_eq_some_iff.mp found).1
    obtain ⟨rest, placed⟩ : ∃ rest, threads[position]? = some rest := ⟨_, Array.getElem?_eq_getElem (same.1 ▸ inside)⟩
    obtain ⟨id, clock⟩ := same.2 position thread rest found placed
    have view := (Scheduler.indexed_of_wiring few sound.wired).found (Array.mem_of_getElem? found)
    have parked := settled.parked thread.id thread.state (Scheduler.state?_eq view)
    rw [placed, Option.map_some, Thread.park, id, clock, ← parked]

end Machine

namespace Console

/-- A reader that took a machine's clocks, and in an instant snapshot what goes with suspended chips, has
that machine once its threads are settled. -/
theorem settled_copy (few : kinds.length ≤ Cartridge.maxCoprocessors) (portable : Bool) {machine base : Machine}
    (sound : machine.Sound .own kinds) (outside : machine.Outside) (settled : portable = true → machine.Settled)
    (fresh : base.Fresh kinds) {threads : Array Thread} (same : SameClocks machine.scheduler.threads threads) :
    settleLoaded portable ⟨if portable then { base.scheduler with threads } else { base.scheduler with
      active := machine.scheduler.active, desynchronized := machine.scheduler.desynchronized,
      threads := machine.scheduler.threads }, machine.board⟩ = .ok (machine.withEvent .frame) := by
  have size := Scheduler.size_of_wiring sound.wired
  have free := sound.free outside.entered
  cases portable with
  | false =>
    refine congrArg Except.ok (congrArg (Machine.mk · machine.board) ?_)
    rw [if_neg Bool.false_ne_true]
    simp only [Scheduler.withEvent, fresh.mode, fresh.event, fresh.entered, fresh.transfer, outside.mode, outside.entered, free]
  | true =>
    have parked := Machine.parked_threads few sound (settled rfl) same
    have held := settled rfl
    have copied : 0 < ({ base.scheduler with threads } : Scheduler).threads.size := by
      rw [← same.1]
      omega
    have inside : ({ base.scheduler with threads } : Scheduler).entered = false := fresh.entered
    rw [if_pos rfl, settleLoaded_eq inside copied]
    refine congrArg Except.ok (congrArg (Machine.mk · machine.board) ?_)
    simp only [if_true, Scheduler.withEvent, Scheduler.parkAll, parked, fresh.mode, fresh.event, fresh.entered, fresh.transfer,
      fresh.desynchronized, outside.mode, outside.entered, free, held.active, held.clear]

/-- What a machine writes, a fresh machine reads, and has that machine once its threads are settled. -/
theorem body_transfers (few : kinds.length ≤ Cartridge.maxCoprocessors) (portable : Bool) {machine base : Machine}
    (sound : machine.Sound .own kinds) (outside : machine.Outside) (settled : portable = true → machine.Settled)
    (near : ∀ id, machine.Near id)
    (active : portable = false → machine.scheduler.active.index < machine.scheduler.threads.size) (fresh : base.Fresh kinds) :
    ∃ body loaded, (machine.serialize portable).Writes machine body ∧ (base.serialize portable).Reads loaded body ∧
      settleLoaded portable loaded = .ok (machine.withEvent .frame) := by
  have complete : Board.Complete (!portable) machine.board base.board := by
    cases portable with
    | false => exact .inl rfl
    | true => exact .inr fun id => .of_rested (fresh.rested id) ((settled rfl).rested id)
  obtain ⟨threads, same, body, writes, reads⟩ :=
    Machine.serialize_transfers few portable sound fresh.sound near sound.fits.ranged active complete
  exact ⟨body, _, writes, reads, settled_copy few portable sound outside settled fresh same⟩

variable [Host ω]

/-- What a console writes is accepted by every console with the same coprocessors, and then both have the
same machine, up to the last event. -/
theorem load_written (few : kinds.length ≤ Cartridge.maxCoprocessors) {portable : Bool} {description : String}
    {console other saved : Console} {data : Array UInt8} (sound : console.machine.Sound .own kinds)
    (outside : console.machine.Outside) (settled : portable = true → console.machine.Settled)
    (fits : other.machine.Sound loads kinds) (carries : other.cartridge.coprocessors = kinds)
    (written : console.writeSnapshot portable description = (data, saved)) (seed : UInt64) (host : ω) :
    Machine.Visited .measure .own kinds portable console.machine saved.machine ∧
      saved = { console with machine := saved.machine } ∧
      ∃ heard, other.load seed data host =
        (.ok (.ok (), { other with machine := saved.machine.withEvent .frame }), heard) := by
  have permitted : Permitted .own .measure := fun _ => by decide
  obtain ⟨size, visited⟩ := measured portable sound
  obtain ⟨machine, machine_eq⟩ : ∃ machine, (console.machine.measure portable).2 = machine := ⟨_, rfl⟩
  rw [machine_eq] at visited
  have sound := sound.renewed permitted visited.toRenewed
  have outside := outside.visited visited
  have fresh : (coldBoot other.configuration other.cartridge seed (Machine.new other.cartridge.coprocessors)).Fresh kinds := by
    rw [carries]
    exact Machine.new_fresh few (Seeding.ofEntropy other.configuration.entropy seed) other.cartridge.program
  obtain ⟨body, loaded, writes, reads, settles⟩ := body_transfers few portable sound outside
    (fun held => by subst held; exact (settled rfl).visited (by decide) visited) visited.near visited.active fresh
  have told := Header.new_visitSize few portable description
  have counted := writes.length (Machine.serialize_yields permitted portable sound)
  have sized := snapshotSize_eq portable console
  have matched := snapshotSize_eq portable other
  rw [size, machine_eq] at sized
  rw [(measured portable fits).1] at matched
  -- From here on only the size of the body counts, not what it is made of.
  generalize Machine.visitSize kinds portable = bodySize at sized matched told counted
  obtain ⟨first, heads, parses⟩ :=
    Header.transfers (Header.new (Header.byteSize + bodySize) portable description) (Header.new 0 false "")
  obtain ⟨rfl, rfl⟩ := Prod.mk.inj ((Console.written sized heads writes).symm.trans written)
  have length : (first ++ body).length = Header.byteSize + bodySize := by
    rw [List.length_append, heads.length (Header.yields _), counted]
  exact ⟨visited, rfl, _, load_eq Header.new_portable matched rfl rfl parses Header.new_signature reads (told.trans length.symm) length.symm
    Header.new_checkVersion settles host⟩

end Console
end MultiClock
