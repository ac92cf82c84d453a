import Mathlib
import MultiClock.CommandLine.Disk
import MultiClock.Proofs.Sessions

/-! What runs of the command line need from their files: a configuration and a cartridge that can be read, and a place where a
snapshot is read back as it was written. A disk that has all that still has it after a snapshot was written to another place. -/

namespace MultiClock.CommandLine

/-- What several runs have in common: the machine, its cheats, and the text that goes with its snapshots. -/
structure Setting where
  cartridge : Option String
  config : Option String
  description : Option String
  cheats : List String

namespace Setting

/-- The arguments of a run that ends with an instant snapshot. -/
def arguments (setting : Setting) (load : Option String) (frames : Nat) (save : String) : Arguments :=
  { Arguments.empty with
    cartridge := setting.cartridge
    config := setting.config
    frames := some frames
    load
    save := some save
    instant := true
    description := setting.description
    cheats := setting.cheats }

/-- The files for a run that writes to a path. -/
structure Supplied {δ : Type} (setting : Setting) (files : Files (StateM δ)) (disk : δ) (configuration : Configuration)
    (cartridge : Cartridge) (path : String) : Prop where
  configuration : ∀ host, Returns (CommandLine.configuration files setting.config) host disk configuration host disk
  cartridge : ∀ host, Returns (CommandLine.cartridge files setting.cartridge) host disk cartridge host disk
  kept : ∀ data, ∃ later, files.write path data disk = (true, later) ∧ files.read path later = (.file data, later)

end Setting

section
variable {δ : Type} {files : Files (StateM δ)} {host heard : Listener} {disk later : δ} {path source : String}

theorem withProgram_valid {cartridge whole : Cartridge} {program : Array UInt8} (made : withProgram cartridge program = .ok whole) :
    whole.validate = .ok () := by
  simp only [withProgram] at made
  split at made
  next valid =>
    cases made
    exact valid
  next => cases made

theorem readCartridge_valid {cartridge : Cartridge} (read : (readCartridge files path disk).1 = .ok cartridge) :
    cartridge.validate = .ok () := by
  simp only [readCartridge, bind, StateT.bind] at read
  generalize readText files path disk = text at read
  obtain ⟨text, disk⟩ := text
  cases text with
  | none => cases read
  | some source =>
    simp only at read
    cases described : Cartridge.ofJson source with
    | error cause =>
      rw [described] at read
      cases read
    | ok plain =>
      rw [described] at read
      simp only [StateT.bind] at read
      generalize files.read (Path.withExtension "bin" path) disk = program at read
      obtain ⟨program, disk⟩ := program
      cases program with
      | nothing | file => exact withProgram_valid read
      | directory => cases read

/-- A cartridge that was read can be run. -/
theorem cartridge_valid {name : Option String} {cartridge : Cartridge}
    (returned : Returns (CommandLine.cartridge files name) host disk cartridge heard later) : cartridge.validate = .ok () := by
  cases name with
  | none =>
    cases returned
    rfl
  | some path =>
    have continues : Returns (orElse id (readCartridge files path disk).1 : Session (StateM δ) Cartridge) host
      (readCartridge files path disk).2 cartridge heard later := returned
    cases read : (readCartridge files path disk).1 with
    | error cause =>
      rw [read] at continues
      cases continues
    | ok whole =>
      rw [read] at continues
      cases continues
      exact readCartridge_valid read

theorem readText_source (found : files.read path disk = (.file source.toByteArray.data, disk)) :
    readText files path disk = (some source, disk) := by
  have decoded : String.fromUTF8? source.toByteArray = some source := dif_pos source.isValidUTF8
  simp only [readText, bind, StateT.bind, found]
  exact congrArg (·, disk) decoded

theorem readCartridge_sources {plain whole : Cartridge} {program : Array UInt8}
    (found : files.read path disk = (.file source.toByteArray.data, disk)) (described : Cartridge.ofJson source = .ok plain)
    (beside : files.read (Path.withExtension "bin" path) disk = (.file program, disk)) (fits : withProgram plain program = .ok whole) :
    readCartridge files path disk = (.ok whole, disk) := by
  simp only [readCartridge, bind, StateT.bind, readText_source found, described, beside, fits]
  rfl

theorem Returns.configuration {chosen : Configuration} (found : files.read path disk = (.file source.toByteArray.data, disk))
    (valid : Configuration.ofJson source = .ok chosen) :
    Returns (CommandLine.configuration files (some path)) host disk chosen host disk := by
  apply (access (readText_source found)).bind
  simp only [valid]
  exact pure chosen

/-- A valid cartridge in two files. -/
theorem Returns.cartridge {plain whole : Cartridge} {program : Array UInt8}
    (found : files.read path disk = (.file source.toByteArray.data, disk)) (described : Cartridge.ofJson source = .ok plain)
    (beside : files.read (Path.withExtension "bin" path) disk = (.file program, disk)) (fits : withProgram plain program = .ok whole) :
    Returns (CommandLine.cartridge files (some path)) host disk whole host disk := by
  apply (access (readCartridge_sources found described beside fits)).bind
  exact pure whole

end

namespace Disk

variable {disk later : Disk} {path config game : String} {configuration : Configuration} {cartridge : Cartridge}

theorem look_eq {name : String} {data : Array UInt8} (named : nameOf disk.root path = some name)
    (found : disk.files.lookup name = some (.bytes data)) : disk.look path = .file data := by
  simp only [look, find?, named, Option.bind_some, found]
  rfl

/-- What was written last is what is read, and nothing else has changed. -/
theorem put_look {file : DiskFile} (stored : disk.put path file = some later) :
    later.root = disk.root ∧ later.look path = .file file.contents ∧
      ∀ other, nameOf disk.root other ≠ nameOf disk.root path → later.look other = disk.look other := by
  obtain ⟨name, named, rfl⟩ := Option.map_eq_some_iff.mp stored
  refine ⟨rfl, ?_, fun other different => ?_⟩
  · simp [look, find?, named]
  · rw [named] at different
    have same : (⟨disk.root, (name, file) :: disk.files⟩ : Disk).find? other = disk.find? other := by
      simp only [find?]
      cases found : nameOf disk.root other with
      | none => rfl
      | some rest =>
        rw [found] at different
        have differs : (rest == name) = false := by simpa using different
        simp [List.lookup, differs]
    simp only [look, same]

theorem put_of_write {data : Array UInt8} (written : access.write path data disk = (true, later)) :
    disk.put path (.bytes data) = some later := by
  simp only [access, store] at written
  split at written
  next stored =>
    cases written
    exact stored
  next => cases written

theorem write_returns {name : String} (named : nameOf disk.root path = some name) (data : Array UInt8) :
    ∃ later, access.write path data disk = (true, later) := by
  have stored : disk.put path (.bytes data) = some { disk with files := (name, .bytes data) :: disk.files } := by
    rw [put, named]
    rfl
  refine ⟨{ disk with files := (name, .bytes data) :: disk.files }, ?_⟩
  simp only [access, store, stored]

/-- A disk with a valid configuration and a valid cartridge. -/
structure Stocked (disk : Disk) (config game : String) (configuration : Configuration) (cartridge : Cartridge) : Prop where
  configuration : ∃ source : String, disk.look config = .file source.toByteArray.data ∧ Configuration.ofJson source = .ok configuration
  cartridge : ∃ (source : String) (plain : Cartridge) (program : Array UInt8), disk.look game = .file source.toByteArray.data ∧
    Cartridge.ofJson source = .ok plain ∧ disk.look (Path.withExtension "bin" game) = .file program ∧
    withProgram plain program = .ok cartridge

namespace Stocked

/-- Writing to other places leaves both as they are. -/
theorem put (stocked : disk.Stocked config game configuration cartridge) {file : DiskFile} (stored : disk.put path file = some later)
    (apart : ∀ input ∈ [config, game, Path.withExtension "bin" game], nameOf disk.root input ≠ nameOf disk.root path) :
    later.Stocked config game configuration cartridge := by
  obtain ⟨_, _, unchanged⟩ := put_look stored
  have same : ∀ input ∈ [config, game, Path.withExtension "bin" game], later.look input = disk.look input :=
    fun input listed => unchanged input (apart input listed)
  obtain ⟨source, found, valid⟩ := stocked.configuration
  obtain ⟨text, plain, program, described, parsed, beside, fits⟩ := stocked.cartridge
  exact ⟨⟨source, (same _ (by simp)).trans found, valid⟩,
    ⟨text, plain, program, (same _ (by simp)).trans described, parsed, (same _ (by simp)).trans beside, fits⟩⟩

theorem supplied (stocked : disk.Stocked config game configuration cartridge) {name : String} (named : nameOf disk.root path = some name)
    (description : Option String) (cheats : List String) :
    Setting.Supplied ⟨some game, some config, description, cheats⟩ access disk configuration cartridge path := by
  have reads : ∀ {path found}, disk.look path = found → access.read path disk = (found, disk) := fun look => look ▸ rfl
  obtain ⟨source, found, valid⟩ := stocked.configuration
  obtain ⟨text, plain, program, described, parsed, beside, fits⟩ := stocked.cartridge
  refine ⟨fun host => .configuration (reads found) valid, fun host => .cartridge (reads described) parsed (reads beside) fits,
    fun data => ?_⟩
  obtain ⟨later, written⟩ := write_returns named data
  obtain ⟨_, back, _⟩ := put_look (put_of_write written)
  exact ⟨later, written, back ▸ rfl⟩

end Stocked
end Disk

end MultiClock.CommandLine
