import MultiClock.Proofs.Acceptance
import MultiClock.Proofs.GrowingDrift
import MultiClock.Proofs.MeasuredMachines

/-! What a load does that is refused. Before the sizes are compared the machine is measured, and measuring puts back the clocks that no
snapshot may hold. Nothing else changes, whatever the machine was loaded with before and whatever it has done since. -/

namespace MultiClock

open Snapshot

variable {loads : Loads} {kinds : List CoprocessorKind}

namespace Console

variable {console later : Console}

theorem Reached.measured_mends (reached : console.Reached .any kinds) (portable : Bool) :
    (console.snapshotSize portable).2 = { console with machine := console.machine.mended } := by
  have steady := reached.steady
  have mends := Machine.measure_mends steady.few portable steady.sound reached.storable steady.directed
  obtain ⟨measured, measured_eq⟩ : ∃ measured, console.machine.measure portable = measured := ⟨_, rfl⟩
  rw [measured_eq] at mends
  rw [snapshotSize_eq, measured_eq, mends]

theorem Reached.operated [Host ω] (reached : console.Reached loads kinds) {budget : Nat} {requests : List Request} {host heard : ω}
    (operated : console.operate budget requests host = (.ok later, heard)) : later.Reached loads kinds := by
  induction requests generalizing console host with
  | nil =>
    cases operated
    exact reached
  | cons request rest ih =>
    cases request with
    | run =>
      obtain ⟨middle, _, ran, operated⟩ := Run.bind_eq_ok operated
      exact ih (reached.ran ran) operated
    | save =>
      obtain ⟨⟨_, middle⟩, _, drove, operated⟩ := Run.bind_eq_ok operated
      exact ih (reached.driven drove) operated

/-- A console that does nothing but save by the strict method gets its display processor further ahead than a snapshot may hold. -/
theorem strict_saves_exceed [Host ω] [Host υ] {configuration : Configuration} {cartridge : Cartridge} {seed : UInt64} {host : ω}
    (built : (Console.new configuration cartridge seed host).1 = .ok console) (strict : console.method = .strict) {count : Nat}
    (often : 7168938 ≤ count) (practical : count + 1 ≤ 2 ^ 23) (listener : υ) : ∃ budget last heard,
      console.operate budget (List.replicate (count + 1) .save) listener = (.ok last, heard) ∧
        Clock.maxDistance < last.machine.scheduler.time .ppu := by
  obtain ⟨few, _, machine⟩ := new_eq_ok built
  have attended : console.machine.Attended 0 cartridge.coprocessors := by
    rw [machine]
    exact (Machine.new_fresh few _ _).attended
  obtain ⟨saves, saves_eq⟩ : ∃ saves, saves = List.replicate (count + 1) Request.save := ⟨_, rfl⟩
  have number : Request.saves saves = count + 1 := saves_eq ▸ Request.saves_replicate (count + 1)
  have small : 0 + Request.saves saves * (1972 * second) ≤ 2 ^ 59 := by
    rw [number]
    simp only [second]
    omega
  obtain ⟨budget, enough⟩ : ∃ budget, Machine.ample (0 + Request.saves saves * (1972 * second)) + Machine.vast < budget :=
    ⟨_, Nat.lt_succ_self _⟩
  have room : Machine.vast < budget := Nat.lt_of_le_of_lt (Nat.le_add_left _ _) enough
  have answers : (Scheduler.answerAll (Watched.completeFrame console.cheats) .strict budget saves
      (console.machine.scheduler, ⟨console.machine.board, []⟩)).Meets _ _ listener :=
    Watched.answers few console.cheats (strict_steering few) saves small enough attended Always.nil
  obtain ⟨⟨scheduler, watched⟩, heard, returned, _⟩ := answers.exists_ok
  have ahead := (Watched.saves_surplus few console.cheats room count attended).of_ok (saves_eq ▸ returned)
  rw [← strict] at returned
  refine ⟨_, _, heard, saves_eq ▸ operate_of_watch (watch_eq_ok returned), ?_⟩
  simp only [second] at ahead
  change _ < scheduler.time .ppu
  simp only [Clock.maxDistance]
  omega

/-- A load that is refused reports nothing. If there is no header, it changes nothing. Otherwise the clocks that are further away than a
snapshot may hold are back at the reference, and all else is as before. So the machine is untouched if no clock is that far away. -/
theorem Reached.load_refused [Host ω] (reached : console.Reached .any kinds) {seed : UInt64} {data : Array UInt8}
    {problem : SnapshotError} {host heard : ω} (returned : console.load seed data host = (.ok (.error problem, later), heard)) :
    heard = host ∧ later = (if (Header.parse data).isOk then { console with machine := console.machine.mended } else console) ∧
      (later = console ↔ (Header.parse data).isOk = false ∨ ∀ id, console.machine.Near id) := by
  obtain ⟨_, _, same, unread | measured⟩ | ⟨impossible, _⟩ := load_eq_ok returned
  · obtain ⟨parsed, kept⟩ := unread
    have missing : (Header.parse data).isOk = false := congrArg Except.isOk parsed
    exact ⟨same, by rw [missing]; exact kept, iff_of_true kept (.inl missing)⟩
  · obtain ⟨header, parsed, mended⟩ := measured
    have read : (Header.parse data).isOk = true := congrArg Except.isOk parsed
    rw [reached.measured_mends] at mended
    have steady := reached.steady
    refine ⟨same, by rw [read]; exact mended, ?_⟩
    rw [read, ← Machine.mended_eq_self steady.sound.wired steady.few, mended]
    refine ⟨fun kept => .inr (congrArg Console.machine kept), fun kept => ?_⟩
    rw [kept.resolve_left (by decide)]
  · cases impossible

/-- A header with nothing in it but the signature. -/
def bareHead : List UInt8 := [0x53, 0x52, 0x53, 0x31] ++ List.replicate 534 0

theorem bareHead_size : bareHead.length = 538 := by
  rw [bareHead, List.length_append, List.length_replicate]
  rfl

theorem bareHead_parses : (Header.parse bareHead.toArray).isOk = true := by
  obtain ⟨header, takes, signature, _⟩ := Header.exists_takes (Header.new 0 false "") bareHead_size
  have signed : header.signature = Header.signatureWord := signature.trans (by decide)
  have parsed : Header.parse (bareHead ++ []).toArray = _ := Header.parse_long takes bareHead_size
  rw [List.append_nil, if_pos signed] at parsed
  exact congrArg Except.isOk parsed

/-- Such a header says that there is nothing. -/
theorem Steady.refuses_bareHead [Host ω] (steady : console.Steady .any kinds) (seed : UInt64) (host : ω) : ∃ later heard,
    console.load seed bareHead.toArray host = (.ok (.error (.sizeMismatch 0 538), later), heard) := by
  obtain ⟨later, heard, loads⟩ := steady.load_verdict seed bareHead.toArray host
  have told : slice bareHead 4 4 = [0, 0, 0, 0] := rfl
  have refused : verdict (console.checks bareHead) = .error (.sizeMismatch 0 538) := by
    rw [checks, Header.checks, bareHead_size, told, List.cons_append, verdict_pass (by decide), List.cons_append,
      verdict_pass (by decide), List.cons_append, verdict_pass (by decide), List.cons_append, verdict_fail (by decide)]
    rfl
  exact ⟨later, heard, refused ▸ loads⟩

/-- A console that was saved so often loses the clock of its display processor in a load that is refused. -/
theorem Reached.load_refused_drifted : ∃ console later : Console, console.Reached .any [.multiplier, .rtc] ∧
    console.load 0 bareHead.toArray () = (.ok (.error (.sizeMismatch 0 538), later), ()) ∧ later ≠ console ∧
      2 ^ 56 < console.machine.scheduler.time .ppu ∧ later.machine.scheduler.time .ppu = 0 := by
  have built := @new_eq Unit _ sample.cartridge rfl ⟨.strict, .low, []⟩ 0 ()
  obtain ⟨_, console, _, operated, far⟩ := strict_saves_exceed built rfl (Nat.le_refl _) (by decide) ()
  have reached : console.Reached .any [.multiplier, .rtc] := Reached.operated (.powered rfl built) operated
  obtain ⟨later, _, refused⟩ := reached.steady.refuses_bareHead 0 ()
  obtain ⟨_, mended, _⟩ := reached.load_refused refused
  rw [if_pos bareHead_parses] at mended
  have lost : later.machine.scheduler.time .ppu = 0 := by
    rw [mended]
    refine (console.machine.time_mended .ppu).trans (if_neg ?_)
    omega
  have apart : 2 ^ 56 < console.machine.scheduler.time .ppu := far
  refine ⟨console, later, reached, refused, ?_, apart, lost⟩
  rintro rfl
  rw [lost] at apart
  exact absurd apart (by decide)

end Console
end MultiClock
