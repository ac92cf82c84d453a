import MultiClock.Proofs.Operations
import MultiClock.Proofs.PlainRuns

/-! What a load finds in the bytes it is given. It depends on the bytes and on the list of coprocessors, and on
nothing that the console held before. -/

namespace MultiClock

open Snapshot

variable {loads : Loads} {kinds : List CoprocessorKind}

namespace Console

variable {console one other : Console}

/-- The header and the machine in the bytes of a snapshot, or why they are refused. All machines of the same
coprocessors have snapshots of one size. -/
def examine (console : Console) (kinds : List CoprocessorKind) (seed : UInt64) (data : Array UInt8) :
    Except SnapshotError (Header × Machine) :=
  match Header.parse data with
  | .error problem => .error problem
  | .ok header =>
    (checkHeader header (Header.byteSize + Machine.visitSize kinds header.portable) data *>
      readBody seed console header data).map fun machine => (header, machine)

/-- Consoles of the same coprocessors find the same, whatever their memories are seeded with. -/
theorem examine_alike (few : kinds.length ≤ Cartridge.maxCoprocessors) (here : one.cartridge.coprocessors = kinds)
    (there : other.cartridge.coprocessors = kinds) (seed rest : UInt64) (data : Array UInt8) :
    one.examine kinds seed data = other.examine kinds rest data := by
  have alike := fun header => readBody_alike few here there seed rest header data
  rw [examine, examine]
  simp only [alike]

/-- A load answers with what it finds. If that is a machine, the console then has it, settled. -/
theorem Steady.load_examines [Host ω] (steady : console.Steady loads kinds) (seed : UInt64) (data : Array UInt8) (host : ω) :
    ∃ later heard, console.load seed data host =
        (.ok ((console.examine kinds seed data).map fun _ => (), later), heard) ∧
      ∀ header machine, console.examine kinds seed data = .ok (header, machine) →
        settleLoaded header.portable machine = .ok later.machine := by
  have alike : ∀ header, readBody seed (console.snapshotSize header.portable).2 header data = readBody seed console header data := by
    intro header
    exact readBody_alike steady.few (steady.measured header.portable).carries steady.carries seed seed header data
  have examined : ∀ header, Header.parse data = .ok header →
      console.examine kinds seed data = (console.bodyOf seed header data).map fun machine => (header, machine) := by
    intro header parsed
    rw [examine, parsed, bodyOf, steady.measured_size, alike]
  obtain ⟨result, notices, ends⟩ := console.load_ends seed data
  rw [ends.load_eq host]
  -- The four ways for a load to end are those of the examination, which cannot tell the settled machine apart.
  cases ends with
  | @unreadable problem parsed =>
    have refused : console.examine kinds seed data = .error problem := by rw [examine, parsed]
    rw [refused]
    refine ⟨_, _, rfl, ?_⟩
    intro header machine found
    cases found
  | @refused header problem parsed found =>
    have refused : console.examine kinds seed data = .error problem := by rw [examined header parsed, found, Except.map]
    rw [refused]
    refine ⟨_, _, rfl, ?_⟩
    intro header machine found
    cases found
  | @unsettled header machine fault parsed found breaks =>
    have body := (alike header).symm.trans (Except.seqRight_eq_ok found)
    obtain ⟨settled, settles⟩ := readBody_settled steady.few steady.carries body header.portable
    cases breaks.symm.trans settles
  | @accepted header machine settled parsed found settles =>
    have accepted : console.examine kinds seed data = .ok (header, machine) := by rw [examined header parsed, found, Except.map]
    rw [accepted]
    refine ⟨_, _, rfl, ?_⟩
    intro header machine same
    cases same
    exact settles

/-- Whatever two consoles of the same coprocessors have been through, and whatever else they were built from, they
answer alike to the same bytes. If they accept them, they have the same machine from then on. -/
theorem Reached.load_forgets [Host ω] [Host υ] (here : one.Reached .any kinds) (there : other.Reached .any kinds)
    (seed rest : UInt64) (data : Array UInt8) (host : ω) (listener : υ) :
    ∃ result later last heard told, one.load seed data host = (.ok (result, later), heard) ∧
      other.load rest data listener = (.ok (result, last), told) ∧ (result = .ok () → later.machine = last.machine) := by
  have alike := examine_alike here.steady.few here.steady.carries there.steady.carries seed rest data
  obtain ⟨later, heard, loads, settles⟩ := here.steady.load_examines seed data host
  obtain ⟨last, told, reloads, resettles⟩ := there.steady.load_examines rest data listener
  rw [← alike] at reloads resettles
  refine ⟨_, later, last, heard, told, loads, reloads, ?_⟩
  intro accepted
  cases found : one.examine kinds seed data with
  | error problem =>
    rw [found] at accepted
    cases accepted
  | ok read =>
    have same := (settles read.1 read.2 found).symm.trans (resettles read.1 read.2 found)
    exact Except.ok.inj same

/-- A console of another title with another program and set up otherwise, which also has a cheat. -/
def stranger : Console :=
  let cartridge : Cartridge := ⟨"STRANGER", [.multiplier, .rtc], #[1, 2, 3]⟩
  let configuration : Configuration := ⟨.strict, .high, []⟩
  addCheat ⟨0, none, 7⟩ ⟨configuration, cartridge, .strict,
    coldBoot configuration cartridge 5 (Machine.new cartridge.coprocessors), []⟩

theorem stranger_reached (loads : Loads) : stranger.Reached loads [.multiplier, .rtc] :=
  .cheated _ (.powered rfl (new_eq rfl ⟨.strict, .high, []⟩ 5 ()))

theorem Reached.load_forgets_strangers : sample.Reached .any [.multiplier, .rtc] ∧ stranger.Reached .any [.multiplier, .rtc] ∧
    ∃ data later last heard told, sample.load 0 data () = (.ok (.ok (), later), heard) ∧
      stranger.load 5 data () = (.ok (.ok (), last), told) ∧ later.machine = last.machine := by
  have here := sample_reached .any
  have there := stranger_reached .any
  obtain ⟨written, written_eq⟩ : ∃ written, sample.writeSnapshot false "switched on" = written := ⟨_, rfl⟩
  obtain ⟨data, saved⟩ := written
  obtain ⟨_, _, heard, accepted⟩ :=
    load_written (by decide) sample_fresh.sound sample_fresh.outside (by simp) sample_fresh.sound rfl written_eq 0 ()
  obtain ⟨result, later, last, heard, told, loads, reloads, same⟩ := Reached.load_forgets here there 0 5 data () ()
  rw [loads] at accepted
  obtain ⟨rfl, _⟩ := Prod.mk.inj (Except.ok.inj (Prod.mk.inj accepted).1)
  exact ⟨here, there, data, later, last, heard, told, loads, reloads, same rfl⟩

end Console
end MultiClock
