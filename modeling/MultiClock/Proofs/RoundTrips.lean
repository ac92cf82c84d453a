import MultiClock.Proofs.Operations

/-! Snapshots written by one console and loaded by another. An instant snapshot changes nothing and holds the whole
machine. A portable one holds the whole machine that it was driven to. Afterwards nothing that both consoles
do can tell them apart, as long as their users chose alike. -/

namespace MultiClock

open Visit Snapshot

variable {loads : Loads} {kinds : List CoprocessorKind}

/-- A machine whose clocks are all near is written as it is. -/
theorem Machine.Sound.writes (few : kinds.length ≤ Cartridge.maxCoprocessors) {machine : Machine} (sound : machine.Sound .own kinds)
    (near : ∀ id, machine.Near id) (directed : machine.Directed) :
    ∃ body, (machine.serialize false).Writes machine body := by
  obtain ⟨_, _, body, writes, _⟩ := Machine.serialize_transfers few false sound sound near sound.fits.ranged (fun _ => directed.active) (.inl rfl)
  exact ⟨body, writes⟩

namespace Console

variable {console later other : Console} {description : String} {data : Array UInt8}

/-- Writing an instant snapshot changes nothing, unless a clock is too far off. -/
theorem Steady.writeSnapshot_same (steady : console.Steady .own kinds) (near : ∀ id, console.machine.Near id)
    (written : console.writeSnapshot false description = (data, later)) : later = console := by
  obtain ⟨body, writes⟩ := steady.sound.writes steady.few near steady.directed
  have measured : (console.machine.measure false).2 = console.machine := by
    obtain ⟨visit, visit_eq⟩ : ∃ visit, console.machine.serialize false = visit := ⟨_, rfl⟩
    rw [visit_eq] at writes
    rw [Machine.measure_eq, visit_eq, writes Serializer.measure (by decide)]
  obtain ⟨size, sized⟩ : ∃ size, console.snapshotSize false = (size, { console with machine := console.machine }) := by
    obtain ⟨measure, measure_eq⟩ : ∃ measure, console.machine.measure false = measure := ⟨_, rfl⟩
    rw [measure_eq] at measured
    rw [snapshotSize_eq, measure_eq, measured]
    exact ⟨_, rfl⟩
  obtain ⟨first, heads, _⟩ := Header.transfers (Header.new size false description) (Header.new 0 false "")
  exact (Prod.mk.inj (written.symm.trans (Console.written sized heads writes))).2

variable [Host ω] {budget : Nat}

theorem handOver_returns {portable : Bool} (written : Array UInt8 × Console) (host : ω) :
    ∃ heard, handOver portable written host = (.ok written, heard) := by
  obtain ⟨data, later⟩ := written
  exact ⟨Host.notice (.saved portable later.machine.board.frame data.size) host, rfl⟩

/-- An instant snapshot is taken without running anything. -/
theorem save_instant (console : Console) (description : String) (host : ω) :
    ∃ heard, console.save budget false description host = (.ok (console.writeSnapshot false description), heard) := by
  rw [save_eq, if_neg Bool.false_ne_true, pure_bind]
  exact handOver_returns _ host

/-- A console that has the machine of another, the last event aside, and the same cheats and method. -/
theorem Steady.twins {reboots : Prop} (steady : console.Steady loads kinds) (carries : other.cartridge.coprocessors = kinds)
    (cheats : other.cheats = console.cheats) (method : other.method = console.method)
    (origin : reboots → other.configuration = console.configuration ∧ other.cartridge = console.cartridge) (event : Event) :
    Twins reboots console { other with machine := console.machine.withEvent event } where
  cheats := cheats
  method := method
  carries := carries.trans steady.carries.symm
  few := steady.carries ▸ steady.few
  origin := origin
  machine := ⟨event, rfl⟩

/-- An instant snapshot of a console whose clocks are all near leaves the console as it is. Every console with the
same coprocessors accepts it and then has the same machine, up to the last event. From there on both answer any
operations alike, if they have the same cheats and method, and the same cartridge where they are powered on again. -/
theorem Reached.instant_round_trip (reached : console.Reached .own kinds) (near : ∀ id, console.machine.Near id)
    (budget : Nat) (description : String) (host : ω) :
    ∃ data heard, console.save budget false description host = (.ok (data, console), heard) ∧
      ∀ other : Console, other.Reached .any kinds → ∀ (seed : UInt64) (listener : ω), ∃ loaded told,
        other.load seed data listener = (.ok (.ok (), loaded), told) ∧
        loaded = { other with machine := console.machine.withEvent .frame } ∧
        (other.cheats = console.cheats → other.method = console.method →
          ∀ operations : List Operation, ((∃ seed, .powerOn seed ∈ operations) →
            other.configuration = console.configuration ∧ other.cartridge = console.cartridge) →
          ∀ (budget : Nat) (host : ω), Agree (Matching (∃ seed, .powerOn seed ∈ operations))
            (console.performAll budget operations host) (loaded.performAll budget operations host)) := by
  have steady := reached.steady
  obtain ⟨heard, saved⟩ : ∃ heard, console.save budget false description host =
      (.ok (console.writeSnapshot false description), heard) := console.save_instant description host
  obtain ⟨written, written_eq⟩ : ∃ written, console.writeSnapshot false description = written := ⟨_, rfl⟩
  obtain ⟨data, later⟩ := written
  rw [written_eq] at saved
  obtain rfl := (steady.writeSnapshot_same near written_eq).symm
  refine ⟨data, heard, saved, fun other came seed listener => ?_⟩
  have fits := came.steady
  have settled : false = true → console.machine.Settled := by simp
  obtain ⟨_, _, told, loads⟩ :=
    load_written steady.few steady.sound steady.outside settled fits.sound fits.carries written_eq seed listener
  refine ⟨_, told, loads, rfl, fun cheats method operations origin budget host => ?_⟩
  exact performAll_agrees operations (fun seed listed => ⟨seed, listed⟩)
    (steady.twins fits.carries cheats method origin .frame) host

/-- A console that was just switched on can be copied into itself. -/
theorem Reached.instant_round_trip_switched_on : sample.Reached .own [.multiplier, .rtc] ∧ (∀ id, sample.machine.Near id) ∧
    ∃ data heard, sample.save 0 false "switched on" () = (.ok (data, sample), heard) ∧
      ∃ loaded told, sample.load 0 data () = (.ok (.ok (), loaded), told) ∧
        loaded = { sample with machine := sample.machine.withEvent .frame } := by
  have near := sample_fresh.near
  obtain ⟨data, heard, saved, accepted⟩ := Reached.instant_round_trip (sample_reached .own) near 0 "switched on" ()
  obtain ⟨loaded, told, loads, same, _⟩ := accepted sample (sample_reached .any) 0 ()
  exact ⟨sample_reached .own, near, data, heard, saved, loaded, told, loads, same⟩

/-- A portable snapshot that was taken is accepted by every console with the same coprocessors, which then has the
machine of the console that was driven and saved, up to the last event. From there on both answer any operations
alike, if they have the same cheats and method, and the same cartridge where they are powered on again. -/
theorem Reached.portable_round_trip (reached : console.Reached .own kinds) {budget : Nat} {description : String} {host heard : ω}
    (saved : console.save budget true description host = (.ok (data, later), heard)) (came : other.Reached .any kinds)
    (seed : UInt64) (listener : ω) :
    ∃ loaded told, other.load seed data listener = (.ok (.ok (), loaded), told) ∧
      loaded = { other with machine := later.machine.withEvent .frame } ∧
      (other.cheats = later.cheats → other.method = later.method →
        ∀ operations : List Operation, ((∃ seed, .powerOn seed ∈ operations) →
          other.configuration = later.configuration ∧ other.cartridge = later.cartridge) →
        ∀ (budget : Nat) (host : ω), Agree (Matching (∃ seed, .powerOn seed ∈ operations))
          (later.performAll budget operations host) (loaded.performAll budget operations host)) := by
  have steady := reached.steady
  have last := steady.save saved
  obtain ⟨driven, drove, written, settled, _⟩ := save_settles steady saved
  have fits := came.steady
  obtain ⟨_, _, told, loads⟩ :=
    load_written drove.few drove.sound drove.outside settled fits.sound fits.carries written seed listener
  refine ⟨_, told, loads, rfl, fun cheats method operations origin budget host => ?_⟩
  exact performAll_agrees operations (fun seed listed => ⟨seed, listed⟩)
    (last.twins fits.carries cheats method origin .frame) host

end Console
end MultiClock
