import MultiClock.Proofs.RoundTrips
import MultiClock.Proofs.SaveEnds

/-! Every console that can be come to can be driven to a save, by either method, and so it can be saved in full. -/

namespace MultiClock

variable {loads : Loads} {kinds : List CoprocessorKind}

namespace Console

variable {console : Console}

/-- A save of a console ends, unless a clock overflows. -/
theorem Steady.runToSave_ends [Host ω] (steady : console.Steady loads kinds) {budget : Nat} (enough : Machine.vast < budget) {host : ω} :
    (console.runToSave budget).Meets (· = .clockOverflow) (fun result _ =>
      (loads = .own → result.1.desyncs.toNat ≤ 2 + kinds.length) ∧
      (console.method = .fast → result.1.passes.toNat = 1) ∧
      (console.method = .strict → result.1.passes.toNat = result.1.desyncs.toNat + 1)) host := by
  have keeps := @Save.keeps_nothing loads kinds Board ω _ _ (fun board => board) (Board.completeFrame console.cheats)
    ⟨console.cheats, fun _ _ => rfl⟩
  rw [runToSave_eq]
  refine (keeps.runToSave_meets 0 Board.wraps steady.few enough (.anyone console.method) (fun _ _ => rfl)
    (fun _ _ => trivial) steady.sound steady.outside.entered steady.directed.active trivial trivial).bind ?_
  rintro driving _ ⟨_, ended, _⟩
  exact .pure ⟨ended.desyncs, ended.fast, ended.strict⟩

/-- Driving any console that can be come to ends by either method, unless a clock overflows. The fast method makes one pass,
and the strict method one more than there were disturbances. As long as only the console's own snapshots were ever loaded,
each of the other chips disturbs a save at most once. -/
theorem Reached.save_converges (reached : console.Reached loads kinds) (method : SaveMethod) {budget : Nat}
    (enough : Machine.vast < budget) {ω : Type} [Host ω] (host : ω) :
    (({ console with method } : Console).runToSave budget).Meets (· = .clockOverflow) (fun result _ =>
      (loads = .own → result.1.desyncs.toNat ≤ 2 + kinds.length) ∧
      (method = .fast → result.1.passes.toNat = 1) ∧
      (method = .strict → result.1.passes.toNat = result.1.desyncs.toNat + 1 ∧
        (loads = .own → result.1.passes.toNat ≤ 3 + kinds.length))) host := by
  have steady := (Reached.chosen method reached).steady
  refine (steady.runToSave_ends enough).mono ?_
  rintro result _ ⟨desyncs, fast, strict⟩
  refine ⟨desyncs, fast, fun same => ⟨strict same, fun own => ?_⟩⟩
  have passes := strict same
  have fewer := desyncs own
  omega

/-- A console that was just switched on has two coprocessors, and needs at most five passes. -/
theorem Reached.save_converges_switched_on : sample.Reached .own [.multiplier, .rtc] ∧
    (({ sample with method := .strict } : Console).runToSave (Machine.vast + 1)).Meets (· = .clockOverflow)
      (fun result _ => result.1.passes.toNat ≤ 5) () := by
  refine ⟨sample_reached .own, ?_⟩
  refine (Reached.save_converges (sample_reached .own) .strict (Nat.lt_succ_self Machine.vast) ()).mono ?_
  rintro result _ ⟨_, _, strict⟩
  exact (strict rfl).2 rfl

/-- So a portable snapshot can always be taken, unless a clock overflows. Every console with the same coprocessors accepts it
and then has the machine of the console that was driven and saved, up to the last event; from there on both answer any
operations alike, if they have the same cheats and method, and the same cartridge where they are powered on again. -/
theorem Reached.portable_snapshot (reached : console.Reached .own kinds) {budget : Nat} (enough : Machine.vast < budget)
    (description : String) {ω : Type} [Host ω] (host : ω) :
    (console.save budget true description).Meets (· = .clockOverflow) (fun saved _ =>
      ∀ other : Console, other.Reached .any kinds → ∀ (seed : UInt64) (listener : ω), ∃ loaded told,
        other.load seed saved.1 listener = (.ok (.ok (), loaded), told) ∧
        loaded = { other with machine := saved.2.machine.withEvent .frame } ∧
        (other.cheats = saved.2.cheats → other.method = saved.2.method →
          ∀ operations : List Operation, ((∃ seed, .powerOn seed ∈ operations) →
            other.configuration = saved.2.configuration ∧ other.cartridge = saved.2.cartridge) →
          ∀ (budget : Nat) (host : ω), Agree (Matching (∃ seed, .powerOn seed ∈ operations))
            (saved.2.performAll budget operations host) (loaded.performAll budget operations host))) host := by
  have returns : (console.save budget true description).Meets (· = .clockOverflow) (fun _ _ => True) host := by
    rw [save_eq, if_pos rfl, map_eq_pure_bind, bind_assoc]
    refine (reached.steady.runToSave_ends enough).bind fun result heard _ => ?_
    rw [pure_bind]
    generalize result.2.writeSnapshot true description = written
    obtain ⟨data, later⟩ := written
    exact .after_report (.pure trivial)
  refine returns.returned.mono ?_
  rintro ⟨data, later⟩ heard ⟨saved, _⟩ other came seed listener
  exact reached.portable_round_trip saved came seed listener

/-- A console that was just switched on can be driven, saved and loaded into itself. -/
theorem Reached.portable_snapshot_switched_on : sample.Reached .own [.multiplier, .rtc] ∧
    (sample.save (Machine.vast + 1) true "switched on").Meets (· = .clockOverflow) (fun saved _ =>
      ∃ loaded told, sample.load 0 saved.1 () = (.ok (.ok (), loaded), told) ∧
        loaded = { sample with machine := saved.2.machine.withEvent .frame }) () := by
  refine ⟨sample_reached .own, ?_⟩
  refine (Reached.portable_snapshot (sample_reached .own) (Nat.lt_succ_self Machine.vast) "switched on" ()).mono ?_
  intro saved _ accepted
  obtain ⟨loaded, told, loads, same, _⟩ := accepted sample (sample_reached .any) 0 ()
  exact ⟨loaded, told, loads, same⟩

end Console
end MultiClock
