import Mathlib.Data.List.Basic
import MultiClock.Proofs.Normalisation

/-! Snapshots of other cartridges. A console measures what it writes, and so it writes nothing that it would refuse
itself. Other coprocessors have snapshots of other sizes, and where only their order differs, the first clock that
is out of place has the wrong frequency. -/

namespace MultiClock

open Visit Snapshot

variable {kinds others : List CoprocessorKind} {portable stack : Bool} {bytes : List UInt8}

/-- A machine that was visited writes a body that its own checks accept. -/
theorem Machine.Visited.writes_accepted {mode : Serializer.Mode} (few : kinds.length ≤ Cartridge.maxCoprocessors)
    {before machine : Machine} (sound : machine.Sound .any kinds) (visited : Visited mode .any kinds portable before machine) :
    ∃ body, (machine.serialize portable).Writes machine body ∧ body.length = Machine.visitSize kinds portable ∧
      (Layout.body kinds portable).refusal? body = none := by
  obtain ⟨_, _, body, writes, reads⟩ := Machine.serialize_transfers few portable sound sound visited.near visited.ranged
    visited.active (.inr fun id => .of_same (Machine.Copied.refl id machine).2)
  have length := writes.length (Machine.serialize_yields (fun _ => by decide) portable sound)
  obtain ⟨last, settles⟩ := Machine.serialize_follows few portable sound body (length.trans (Layout.size_body kinds portable).symm)
  have takes : (machine.serialize portable).Takes body ((Layout.body kinds portable).refusal? body) last := settles.takes
  refine ⟨body, writes, length, ?_⟩
  have holds : (Serializer.load body.toArray).Holds body := ⟨[], [], by simp [Serializer.load], rfl⟩
  have same := (reads _ rfl holds).symm.trans (takes _ rfl holds)
  exact (congrArg (fun result => result.2.invalid) same).symm

namespace Snapshot.Layout

/-- Each layout reads its own bytes, however many follow. -/
theorem refusal?_both (first rest : Layout) (bytes : List UInt8) :
    refusal? (first ++ rest) bytes = (first.refusal? bytes).or (rest.refusal? (bytes.drop first.size)) := by
  induction first generalizing bytes with
  | nil => rfl
  | cons part first ih => rw [List.cons_append, refusal?, refusal?, ih, Option.or_assoc, List.drop_drop, size_cons]

def coprocessor (stack : Bool) (kind : CoprocessorKind) : Layout := thread [kind] stack (.coprocessor 0)

theorem thread_coprocessor {index : UInt8} {kind : CoprocessorKind} (listed : kinds[index.toNat]? = some kind) :
    thread kinds stack (.coprocessor index) = coprocessor stack kind := by
  rw [coprocessor, thread, thread, chip, chip, frequencyOf, frequencyOf, Part.registers, Part.registers, Part.inFlight,
    Part.inFlight, listed]
  rfl

/-- The threads of the coprocessors stand in the order of the list. -/
theorem threads_eq (few : kinds.length ≤ Cartridge.maxCoprocessors) : (threadsOf kinds.length).flatMap (thread kinds stack) =
    [.cpu, .smp, .ppu].flatMap (thread [] stack) ++ kinds.flatMap (coprocessor stack) := by
  have items : ((List.range kinds.length).map fun i => ThreadId.coprocessor (UInt8.ofNat i)).map (thread kinds stack) =
      kinds.map (coprocessor stack) := by
    apply List.ext_getElem
    · rw [List.length_map, List.length_map, List.length_map, List.length_range]
    · intro i _ inside
      rw [List.length_map] at inside
      simp only [Cartridge.maxCoprocessors] at few
      have number : (UInt8.ofNat i).toNat = i := by
        rw [UInt8.toNat_ofNat']
        omega
      rw [List.getElem_map, List.getElem_map, List.getElem_map, List.getElem_range]
      apply thread_coprocessor
      rw [number, List.getElem?_eq_getElem inside]
  have last := congrArg List.flatten items
  rw [← List.flatMap_def, ← List.flatMap_def] at last
  rw [threadsOf, List.flatMap_cons, List.flatMap_cons, List.flatMap_cons, last]
  simp only [List.flatMap_cons, List.flatMap_nil, List.append_nil, List.append_assoc]
  rfl

/-- What comes before the coprocessors in a body. -/
def shared (count : Nat) (stack : Bool) : Layout :=
  Part.plain 8 :: Part.plain 0x2000 :: Part.latch :: List.replicate count Part.latch ++
    [.cpu, .smp, .ppu].flatMap (thread [] stack)

theorem body_eq (few : kinds.length ≤ Cartridge.maxCoprocessors) (portable : Bool) : body kinds portable =
    shared kinds.length (!portable) ++ (kinds.flatMap (coprocessor !portable) ++
      if portable then [] else [Part.stack (3 + kinds.length)]) := by
  rw [body, threads_eq few, shared, List.append_assoc, List.append_assoc]

/-- Whatever else they say, the bytes of a coprocessor say how fast it is. -/
theorem clock_frequency {frequency : UInt32} {reference : Bool} {rest : Layout}
    (fine : refusal? (Part.clock frequency reference :: rest) bytes = none) : numeral ((bytes.take 12).take 4) = frequency.toNat := by
  have clock : (Part.clock frequency reference).refusal? (bytes.take 12) = none := (Option.or_eq_none_iff.mp fine).1
  rw [Part.clock, Part.refusal?_cons] at clock
  exact of_decide_eq_true (accepted_of_none (Option.or_eq_none_iff.mp clock).1)

theorem clock_refused {frequency : UInt32} {reference : Bool} {rest : Layout}
    (wrong : numeral ((bytes.take 12).take 4) ≠ frequency.toNat) :
    refusal? (Part.clock frequency reference :: rest) bytes = some "thread frequency" := by
  have clock : (Part.clock frequency reference).refusal? (bytes.take 12) = some "thread frequency" := by
    rw [Part.clock, Part.refusal?_cons, Rule.refusal?]
    simp only [Rule.content, List.drop_zero, wrong, decide_false, Bool.false_eq_true, if_false, Option.some_or]
  have first : (Part.clock frequency reference).size = 12 := rfl
  rw [refusal?, first, clock, Option.some_or]

theorem frequency_injective {kind other : CoprocessorKind}
    (same : frequencyOf [kind] (.coprocessor 0) = frequencyOf [other] (.coprocessor 0)) : kind = other := by
  cases kind with
  | multiplier =>
    cases other with
    | multiplier => rfl
    | rtc => cases same
  | rtc =>
    cases other with
    | multiplier => cases same
    | rtc => rfl

/-- The first coprocessor that is out of place is refused for its frequency. -/
theorem coprocessors_refused (length : kinds.length = others.length) (apart : kinds ≠ others) (rest : Layout)
    (fine : refusal? (kinds.flatMap (coprocessor stack)) bytes = none) :
    refusal? (others.flatMap (coprocessor stack) ++ rest) bytes = some "thread frequency" := by
  induction kinds generalizing others bytes with
  | nil => exact absurd (List.length_eq_zero_iff.mp length.symm).symm apart
  | cons kind kinds ih =>
    cases others with
    | nil => cases length
    | cons other others =>
      rw [List.flatMap_cons, refusal?_both] at fine
      rw [List.flatMap_cons, List.append_assoc]
      obtain ⟨here, there⟩ := Option.or_eq_none_iff.mp fine
      -- Up to the first different kind the layouts are the same. There the frequency of the clock is read first.
      by_cases same : kind = other
      · subst same
        have apart : kinds ≠ others := fun same => apart (congrArg _ same)
        rw [refusal?_both, here, Option.none_or]
        exact ih (Nat.succ.inj length) apart there
      · apply clock_refused
        intro alike
        apply same
        apply frequency_injective
        apply UInt32.toNat_inj.mp
        exact (clock_frequency here).symm.trans alike

theorem body_refused (few : kinds.length ≤ Cartridge.maxCoprocessors) (length : kinds.length = others.length)
    (apart : kinds ≠ others) (fine : (body kinds portable).refusal? bytes = none) :
    (body others portable).refusal? bytes = some "thread frequency" := by
  rw [body_eq few, refusal?_both, refusal?_both] at fine
  obtain ⟨here, there⟩ := Option.or_eq_none_iff.mp fine
  obtain ⟨there, _⟩ := Option.or_eq_none_iff.mp there
  rw [body_eq (length ▸ few), refusal?_both, ← length, here, Option.none_or]
  exact coprocessors_refused length apart _ there

theorem size_coprocessor (kind : CoprocessorKind) : size (coprocessor stack kind) = 12 + Coprocessor.visitSize stack kind :=
  size_thread [kind] stack (.coprocessor 0)

theorem size_coprocessors (kinds : List CoprocessorKind) : size (kinds.flatMap (coprocessor stack)) =
    kinds.count .multiplier * (12 + Coprocessor.visitSize stack .multiplier) +
      kinds.count .rtc * (12 + Coprocessor.visitSize stack .rtc) := by
  induction kinds with
  | nil => rw [List.flatMap_nil, List.count_nil, List.count_nil, Nat.zero_mul, Nat.zero_mul, size_nil]
  | cons kind kinds ih =>
    rw [List.flatMap_cons, size_append, ih, size_coprocessor]
    cases kind with
    | multiplier =>
      rw [List.count_cons_self, List.count_cons_of_ne (by decide), Nat.succ_mul]
      omega
    | rtc =>
      rw [List.count_cons_self, List.count_cons_of_ne (by decide), Nat.succ_mul]
      omega

theorem length_eq_counts (kinds : List CoprocessorKind) : kinds.length = kinds.count .multiplier + kinds.count .rtc := by
  induction kinds with
  | nil => rfl
  | cons kind kinds ih =>
    cases kind with
    | multiplier =>
      rw [List.length_cons, List.count_cons_self, List.count_cons_of_ne (by decide), ih]
      omega
    | rtc =>
      rw [List.length_cons, List.count_cons_self, List.count_cons_of_ne (by decide), ih]
      omega

theorem size_shared (count : Nat) : size (shared count stack) = size (shared 0 stack) + count * 9 := by
  rw [shared, shared, size_append, size_append, size_cons]
  simp only [size_cons, size_replicate, List.replicate_zero, size_nil]
  have latch : Part.latch.size = 9 := rfl
  rw [latch]
  omega

/-- A body is so much longer for every coprocessor, with its latch and where its thread is suspended. -/
theorem size_body_counts (few : kinds.length ≤ Cartridge.maxCoprocessors) (portable : Bool) : (body kinds portable).size =
    size (shared 0 !portable) + (if portable then 0 else 5) + kinds.count .multiplier * (if portable then 29 else 32) +
      kinds.count .rtc * (if portable then 27 else 29) := by
  have total := length_eq_counts kinds
  rw [body_eq few, size_append, size_append, size_coprocessors, size_shared]
  cases portable with
  | true =>
    simp only [Coprocessor.visitSize, if_true, Bool.not_true, Bool.false_eq_true, if_false, size_nil]
    omega
  | false =>
    have stacked : size [Part.stack (3 + kinds.length)] = 2 + (3 + kinds.length) := rfl
    simp only [Coprocessor.visitSize, if_true, Bool.not_false, Bool.false_eq_true, if_false, stacked]
    omega

/-- Bodies are of one size if and only if they are of the same coprocessors in some order. -/
theorem size_body_eq (few : kinds.length ≤ Cartridge.maxCoprocessors) (small : others.length ≤ Cartridge.maxCoprocessors) :
    (body kinds portable).size = (body others portable).size ↔ kinds.Perm others := by
  rw [size_body_counts few, size_body_counts small]
  constructor
  · intro same
    rw [length_eq_counts] at few small
    simp only [Cartridge.maxCoprocessors] at few small
    have counts : kinds.count .multiplier = others.count .multiplier ∧ kinds.count .rtc = others.count .rtc := by
      cases portable with
      | true =>
        simp only [if_true] at same
        omega
      | false =>
        simp only [Bool.false_eq_true, if_false] at same
        omega
    apply List.perm_iff_count.mpr
    intro kind
    cases kind with
    | multiplier => exact counts.1
    | rtc => exact counts.2
  · intro same
    rw [same.count_eq, same.count_eq]

end Snapshot.Layout

namespace Console

variable {console reader writer later : Console} {data : Array UInt8} {description : String}

/-- What a console writes has a header that tells its size and a body that its own checks accept. -/
theorem Steady.written_accepted (steady : console.Steady .any kinds)
    (written : console.writeSnapshot portable description = (data, later)) : ∃ first body,
      data = (first ++ body).toArray ∧ first.length = Header.byteSize ∧ body.length = Machine.visitSize kinds portable ∧
      (Serializable.serialize (Header.new 0 false "")).Reads
        (Header.new (Header.byteSize + Machine.visitSize kinds portable) portable description) first ∧
      (Layout.body kinds portable).refusal? body = none := by
  obtain ⟨size, visited⟩ := Console.measured portable steady.sound
  have sized := snapshotSize_eq portable console
  obtain ⟨machine, machine_eq⟩ : ∃ machine, (console.machine.measure portable).2 = machine := ⟨_, rfl⟩
  rw [size, machine_eq] at sized
  rw [machine_eq] at visited
  have sound := steady.sound.renewed (fun _ => by decide) visited.toRenewed
  obtain ⟨body, writes, length, fine⟩ := visited.writes_accepted steady.few sound
  obtain ⟨first, heads, parses⟩ := Header.transfers
    (Header.new (Header.byteSize + Machine.visitSize kinds portable) portable description) (Header.new 0 false "")
  have same := (Console.written sized heads writes).symm.trans written
  exact ⟨first, body, (Prod.mk.inj same).1.symm, heads.length (Header.yields _), length, parses, fine⟩

/-- What a console finds in bytes that another one wrote. The size is checked before the body. -/
theorem Steady.examine_written_by (steady : reader.Steady .any others) (few : kinds.length ≤ Cartridge.maxCoprocessors)
    (seed : UInt64) {first body : List UInt8} (head_size : first.length = Header.byteSize)
    (length : body.length = Machine.visitSize kinds portable) (parses : (Serializable.serialize (Header.new 0 false "")).Reads
      (Header.new (Header.byteSize + Machine.visitSize kinds portable) portable description) first) :
    (reader.examine others seed (first ++ body).toArray).map (fun _ => ()) =
      if Machine.visitSize others portable = Machine.visitSize kinds portable then outcome ((Layout.body others portable).refusal? body)
      else .error (.sizeMismatch (Header.byteSize + Machine.visitSize others portable) (Header.byteSize + Machine.visitSize kinds portable)) := by
  have holds : (Serializer.load (first ++ body).toArray).Holds (first ++ body) := ⟨[], [], by simp [Serializer.load], rfl⟩
  have total : (first ++ body).toArray.size = Header.byteSize + Machine.visitSize kinds portable := by
    rw [List.size_toArray, List.length_append, head_size, length]
  obtain ⟨header, header_eq⟩ : ∃ header, Header.new (Header.byteSize + Machine.visitSize kinds portable) portable description = header :=
    ⟨_, rfl⟩
  have told : header.size.toNat = Header.byteSize + Machine.visitSize kinds portable := by
    rw [← header_eq]
    exact Header.new_visitSize few portable description
  have flag : header.portable = portable := header_eq ▸ Header.new_portable
  have built : header.checkVersion = .ok () := header_eq ▸ Header.new_checkVersion
  have signed : header.signature = Header.signatureWord := header_eq ▸ Header.new_signature
  rw [header_eq] at parses
  subst flag
  have verdict := fun same : Machine.visitSize others header.portable = Machine.visitSize kinds header.portable =>
    readBody_verdict steady.few steady.carries seed parses.takes (length.trans same.symm)
  obtain ⟨reading, reading_eq⟩ : ∃ reading, reading = @readBody := ⟨_, rfl⟩
  rw [examine, parse_eq parses holds.left signed]
  simp only [forget_map]
  rw [← reading_eq] at verdict ⊢
  by_cases same : Machine.visitSize others header.portable = Machine.visitSize kinds header.portable
  · have checked : checkHeader header (Header.byteSize + Machine.visitSize others header.portable) (first ++ body).toArray = .ok () := by
      rw [checkHeader, if_neg (not_not_intro (told.trans total.symm)), if_neg (not_not_intro (same ▸ total.symm))]
      exact built
    rw [if_pos same, checked, ← verdict same]
    rfl
  · have refused : checkHeader header (Header.byteSize + Machine.visitSize others header.portable) (first ++ body).toArray =
        .error (.sizeMismatch (Header.byteSize + Machine.visitSize others header.portable)
          (Header.byteSize + Machine.visitSize kinds header.portable)) := by
      rw [checkHeader, if_neg (not_not_intro (told.trans total.symm)), total, if_pos (fun alike => same (Nat.add_left_cancel alike))]
      rfl
    rw [if_neg same, refused]
    rfl

/-- A console refuses what a console with other coprocessors saved, whatever both have been through. -/
theorem Reached.load_foreign [Host ω] [Host υ] (wrote : writer.Reached .any kinds) (reached : reader.Reached .any others)
    (foreign : kinds ≠ others) {budget : Nat} {host heard : ω}
    (saved : writer.save budget portable description host = (.ok (data, later), heard)) (seed : UInt64) (listener : υ) :
    ∃ problem last told, reader.load seed data listener = (.ok (.error problem, last), told) ∧
      (kinds.Perm others → problem = .invalidValue "thread frequency") ∧
      (¬ kinds.Perm others → problem = .sizeMismatch (reader.snapshotSize portable).1 data.size) := by
  have few := wrote.steady.few
  have steady := reached.steady
  obtain ⟨driven, drove, written⟩ := wrote.steady.save_drives saved
  obtain ⟨first, body, rfl, head_size, length, parses, fine⟩ := drove.written_accepted written
  have total : (first ++ body).toArray.size = Header.byteSize + Machine.visitSize kinds portable := by
    rw [List.size_toArray, List.length_append, head_size, length]
  have measured : (reader.snapshotSize portable).1 = Header.byteSize + Machine.visitSize others portable := by
    rw [snapshotSize_eq, (Console.measured portable steady.sound).1]
  have sizes : Machine.visitSize others portable = Machine.visitSize kinds portable ↔ kinds.Perm others := by
    rw [← Layout.size_body, ← Layout.size_body, Layout.size_body_eq steady.few few]
    exact List.perm_comm
  obtain ⟨last, told, loads, _⟩ := steady.load_examines seed (first ++ body).toArray listener
  rw [steady.examine_written_by few seed head_size length parses] at loads
  rw [measured, total]
  by_cases alike : kinds.Perm others
  · rw [if_pos (sizes.mpr alike), Layout.body_refused few alike.length_eq foreign fine] at loads
    exact ⟨_, last, told, loads, fun _ => rfl, fun other => absurd alike other⟩
  · rw [if_neg (fun same => alike (sizes.mp same))] at loads
    exact ⟨_, last, told, loads, fun other => absurd other alike, fun _ => rfl⟩

/-- A console without a program, switched on. -/
def carrying (kinds : List CoprocessorKind) : Console :=
  ⟨Configuration.standard, ⟨"OTHER", kinds, #[]⟩, .fast, coldBoot Configuration.standard ⟨"OTHER", kinds, #[]⟩ 0 (Machine.new kinds), []⟩

/-- What a console with one coprocessor of each kind saved is refused with them in the other order, and with one of them. -/
theorem Reached.load_foreign_switched_on : sample.Reached .any [.multiplier, .rtc] ∧
    (carrying [.rtc, .multiplier]).Reached .any [.rtc, .multiplier] ∧ (carrying [.rtc]).Reached .any [.rtc] ∧
    ∃ data later heard, sample.save 0 false "switched on" () = (.ok (data, later), heard) ∧
      (∃ last told, (carrying [.rtc, .multiplier]).load 0 data () =
        (.ok (.error (.invalidValue "thread frequency"), last), told)) ∧
      ∃ last told, (carrying [.rtc]).load 0 data () =
        (.ok (.error (.sizeMismatch ((carrying [.rtc]).snapshotSize false).1 data.size), last), told) := by
  have swapped : (carrying [.rtc, .multiplier]).Reached .any [.rtc, .multiplier] :=
    .powered rfl (new_eq rfl Configuration.standard 0 ())
  have fewer : (carrying [.rtc]).Reached .any [.rtc] := .powered rfl (new_eq rfl Configuration.standard 0 ())
  have reached := sample_reached .any
  obtain ⟨written, written_eq⟩ : ∃ written, sample.writeSnapshot false "switched on" = written := ⟨_, rfl⟩
  obtain ⟨data, later⟩ := written
  obtain ⟨heard, saved⟩ := save_written 0 written_eq ()
  obtain ⟨_, last, told, loads, named, _⟩ := Reached.load_foreign reached swapped (by decide) saved 0 ()
  obtain rfl := named (List.Perm.swap _ _ _)
  obtain ⟨_, other, met, refuses, _, sized⟩ := Reached.load_foreign reached fewer (by decide) saved 0 ()
  obtain rfl := sized fun same => absurd same.length_eq (by decide)
  exact ⟨reached, swapped, fewer, data, later, heard, saved, ⟨last, told, loads⟩, other, met, refuses⟩

end Console
end MultiClock
