import Mathlib.Data.List.Sort
import MultiClock.Proofs.Examination
import MultiClock.Proofs.SettlingMachines

/-! Which bytes a console accepts as a snapshot, and which error the others get. The checks of a header and of a body are
listed in the order in which they are made, and the first one that fails decides. -/

namespace MultiClock

open Visit Snapshot

variable {kinds : List CoprocessorKind} {data : Array UInt8}

namespace Snapshot

/-- Whether a snapshot passes, and its error if it does not. -/
structure Check where
  passes : Bool
  error : SnapshotError

/-- The error of the first check that fails, if there is one. -/
def verdict (checks : List Check) : Except SnapshotError Unit :=
  match checks.find? fun check => !check.passes with
  | none => .ok ()
  | some check => .error check.error

theorem verdict_pass {check : Check} (passes : check.passes = true) (rest : List Check) : verdict (check :: rest) = verdict rest := by
  rw [verdict, List.find?_cons, passes]
  rfl

theorem verdict_fail {check : Check} (fails : check.passes = false) (rest : List Check) :
    verdict (check :: rest) = .error check.error := by
  rw [verdict, List.find?_cons, fails]
  rfl

theorem verdict_eq_ok (checks : List Check) : verdict checks = .ok () ↔ ∀ check ∈ checks, check.passes = true := by
  induction checks with
  | nil => simp [verdict]
  | cons check rest ih =>
    cases passes : check.passes with
    | true => simp [verdict_pass passes, ih, passes]
    | false => simp [verdict_fail passes, passes]

theorem verdict_eq_error {checks : List Check} {problem : SnapshotError} (refused : verdict checks = .error problem) :
    ∃ check ∈ checks, check.passes = false ∧ check.error = problem := by
  induction checks with
  | nil => cases refused
  | cons check rest ih =>
    cases passes : check.passes with
    | true =>
      rw [verdict_pass passes] at refused
      obtain ⟨other, member, fails⟩ := ih refused
      exact ⟨other, List.mem_cons_of_mem check member, fails⟩
    | false =>
      rw [verdict_fail passes] at refused
      cases refused
      exact ⟨check, List.mem_cons_self, passes, rfl⟩

theorem forget_map (f : α → β) (result : Except ε α) : (result.map f).map (fun _ => ()) = result.map fun _ => () := by
  cases result <;> rfl

theorem verdict_append {first rest : List Check} {reading : Except SnapshotError α}
    (follows : verdict first = .ok () → verdict rest = reading.map fun _ => ()) :
    verdict (first ++ rest) = (verdict first *> reading).map fun _ => () := by
  induction first with
  | nil => exact follows rfl
  | cons check first ih =>
    rw [List.cons_append]
    cases passes : check.passes with
    | true =>
      rw [verdict_pass passes] at follows
      rw [verdict_pass passes, verdict_pass passes, ih follows]
    | false =>
      rw [verdict_fail passes, verdict_fail passes]
      rfl

theorem verdict_append_of_ok {first : List Check} (fine : verdict first = .ok ()) (rest : List Check) :
    verdict (first ++ rest) = verdict rest := by
  have same : verdict rest = (verdict rest).map fun _ => () := by
    cases verdict rest <;> rfl
  rw [verdict_append fun _ => same, fine]
  exact same.symm

/-- What the first refused field makes of a snapshot. -/
def outcome : Option String → Except SnapshotError Unit
  | none => .ok ()
  | some field => .error (.invalidValue field)

def slice (bytes : List UInt8) (offset width : Nat) : List UInt8 := (bytes.drop offset).take width

theorem slice_append {first : List UInt8} (rest : List UInt8) {offset width : Nat} (inside : offset + width ≤ first.length) :
    slice (first ++ rest) offset width = slice first offset width := by
  rw [slice, slice, List.drop_append_of_le_length (by omega), List.take_append_of_le_length]
  rw [List.length_drop]
  omega

namespace Layout

/-- The checks of the fields of a body. -/
def checks : Layout → List UInt8 → List Check
  | [], _ => []
  | part :: rest, bytes =>
    part.rules.map (fun rule => ⟨rule.accepts (rule.content (bytes.take part.size)), .invalidValue rule.field⟩) ++
      checks rest (bytes.drop part.size)

theorem verdict_rules (rules : List Rule) (bytes : List UInt8) (rest : List Check) :
    verdict (rules.map (fun rule => ⟨rule.accepts (rule.content bytes), .invalidValue rule.field⟩) ++ rest) =
      match rules.findSome? (·.refusal? bytes) with
      | none => verdict rest
      | some field => .error (.invalidValue field) := by
  induction rules with
  | nil => rfl
  | cons rule rules ih =>
    rw [List.map_cons, List.cons_append, List.findSome?_cons, Rule.refusal?]
    cases passes : rule.accepts (rule.content bytes) with
    | true =>
      rw [verdict_pass rfl, ih]
      rfl
    | false => exact verdict_fail rfl _

theorem verdict_checks (layout : Layout) (bytes : List UInt8) : verdict (layout.checks bytes) = outcome (layout.refusal? bytes) := by
  induction layout generalizing bytes with
  | nil => rfl
  | cons part rest ih =>
    rw [checks, verdict_rules, ih, refusal?, Part.refusal?]
    cases part.rules.findSome? (·.refusal? (bytes.take part.size)) <;> rfl

/-- The fields in the order in which they stand in the bytes. -/
def sorted (layout : Layout) : Layout :=
  layout.map fun part => { part with rules := part.rules.insertionSort fun one other => one.offset ≤ other.offset }

theorem error_of_mem_checks {layout : Layout} {bytes : List UInt8} {check : Check} (member : check ∈ layout.checks bytes) :
    ∃ field, check.error = .invalidValue field := by
  induction layout generalizing bytes with
  | nil => cases member
  | cons part rest ih =>
    rcases List.mem_append.mp member with here | there
    · obtain ⟨rule, _, rfl⟩ := List.mem_map.mp here
      exact ⟨rule.field, rfl⟩
    · exact ih there

end Layout

namespace Header

/-- Any byte but zero says that a snapshot is portable. -/
def tellsPortable (bytes : List UInt8) : Bool := slice bytes 536 1 != [0]

/-- The checks of a header against the size of the snapshot and of those of the machine. -/
def checks (bytes : List UInt8) (measured : Bool → Nat) : List Check :=
  [⟨4 ≤ bytes.length, .truncated⟩,
    ⟨numeral (slice bytes 0 4) = signatureWord.toNat, .invalidSignature (UInt32.ofNat (numeral (slice bytes 0 4)))⟩,
    ⟨byteSize ≤ bytes.length, .truncated⟩,
    ⟨numeral (slice bytes 4 4) = bytes.length, .sizeMismatch (numeral (slice bytes 4 4)) bytes.length⟩,
    ⟨measured (tellsPortable bytes) = bytes.length, .sizeMismatch (measured (tellsPortable bytes)) bytes.length⟩,
    ⟨slice bytes 8 16 = (FixedText.encode 16 buildVersion).toList,
      .versionMismatch buildVersion (FixedText.decode (slice bytes 8 16).toArray)⟩]

end Header
end Snapshot

/-- Moves on, and remembers whether that was past the end of the buffer. -/
def Visit.Passes (visit : Visit α) (size : Nat) : Prop :=
  ∀ s : Serializer, s.mode = .load → (visit s).2 =
    { s with cursor := s.cursor + size, overrun := s.overrun || decide (s.buffer.size < s.cursor + size) }

namespace Visit.Passes

theorem bind {visit : Visit α} {next : α → Visit β} {first rest : Nat} (passes : visit.Passes first)
    (follows : ∀ value, (next value).Passes rest) : Passes (visit >>= next) (first + rest) := by
  intro s loading
  have once : (decide (s.buffer.size < s.cursor + first) || decide (s.buffer.size < s.cursor + first + rest)) =
      decide (s.buffer.size < s.cursor + (first + rest)) := by
    rw [← Bool.decide_or, decide_eq_decide]
    omega
  have moved := passes s loading
  rw [bind_apply, follows _ _ (by rw [moved]; exact loading), moved]
  simp only [Bool.or_assoc, once]
  rw [Nat.add_assoc]

theorem onto {visit : Visit α} {size : Nat} (passes : visit.Passes size) (f : α → β) :
    Passes (visit >>= fun value => pure (f value)) size := passes

theorem word [Word α] (base : α) : (Serializer.word base).Passes (Word.size α) := by
  intro s loading
  simp only [Serializer.word, loading]

theorem bytes (base : Vector UInt8 n) (some_byte : 0 < n) : (Serializer.bytes base).Passes n := by
  intro s loading
  have short : decide (s.buffer.size - s.cursor < n) = decide (s.buffer.size < s.cursor + n) := by
    rw [decide_eq_decide]
    omega
  rw [bytes_load loading, short]

theorem boolean (base : Bool) : (Serializer.boolean base).Passes 1 := word (if base then 1 else 0 : UInt8)

end Visit.Passes

namespace Snapshot.Header

variable {bytes : List UInt8}

theorem passes (base : Header) : (Serializable.serialize base).Passes byteSize :=
  .bind (.word _) fun _ => .bind (.word _) fun _ => .bind (.bytes _ (by decide)) fun _ => .bind (.bytes _ (by decide)) fun _ =>
    .bind (.boolean _) fun _ => (Passes.boolean _).onto _

/-- The first four bytes are the signature, however many follow. -/
theorem signature_eq (base : Header) (enough : 4 ≤ data.size) :
    (Serializable.serialize base (Serializer.load data)).1.signature = UInt32.ofNat (numeral (slice data.toList 0 4)) := by
  have holds : (Serializer.load data).Holds (slice data.toList 0 4) :=
    ⟨[], data.toList.drop 4, by simp [Serializer.load, slice], rfl⟩
  have taken := Takes.word base.signature (show (slice data.toList 0 4).length = 4 by simp [slice, enough])
    (Serializer.load data) rfl holds
  exact congrArg Prod.fst taken

theorem parse_def (data : Array UInt8) : Header.parse data =
    let read := Serializable.serialize (new 0 false "") (Serializer.load data)
    if 4 ≤ data.size ∧ read.1.signature ≠ signatureWord then .error (.invalidSignature read.1.signature)
    else if read.2.overrun then .error .truncated else .ok read.1 := rfl

theorem signature_matches (length : bytes.length = 4) :
    UInt32.ofNat (numeral bytes) = signatureWord ↔ numeral bytes = signatureWord.toNat := by
  have small : numeral bytes < 2 ^ 32 := by
    have bound := numeral_lt bytes
    rwa [length] at bound
  rw [← UInt32.toNat_inj, UInt32.toNat_ofNat', Nat.mod_eq_of_lt small]

theorem parse_short (short : data.size < byteSize) : ∃ problem, Header.parse data = .error problem ∧
    ∀ measured rest, verdict (checks data.toList measured ++ rest) = .error problem := by
  have overrun : (Serializable.serialize (new 0 false "") (Serializer.load data)).2.overrun = true := by
    rw [passes _ (Serializer.load data) rfl]
    simpa [Serializer.load] using short
  have missing : decide (byteSize ≤ data.toList.length) = false := decide_eq_false (Nat.not_le.mpr short)
  rw [parse_def]
  simp only [overrun, if_true]
  by_cases enough : 4 ≤ data.size
  · have present : decide (4 ≤ data.toList.length) = true := decide_eq_true enough
    have matched := signature_matches (show (slice data.toList 0 4).length = 4 by simp [slice, enough])
    rw [signature_eq _ enough]
    by_cases signed : numeral (slice data.toList 0 4) = signatureWord.toNat
    · refine ⟨_, if_neg (fun refused => refused.2 (matched.mpr signed)), fun measured rest => ?_⟩
      rw [checks, List.cons_append, verdict_pass present, List.cons_append, verdict_pass (decide_eq_true signed),
        List.cons_append, verdict_fail missing]
    · refine ⟨_, if_pos ⟨enough, fun same => signed (matched.mp same)⟩, fun measured rest => ?_⟩
      rw [checks, List.cons_append, verdict_pass present, List.cons_append, verdict_fail (decide_eq_false signed)]
  · refine ⟨_, if_neg fun refused => enough refused.1, fun measured rest => ?_⟩
    rw [checks, List.cons_append, verdict_fail (decide_eq_false enough)]

/-- The fields of a header that is there in full. -/
theorem exists_takes (base : Header) (length : bytes.length = byteSize) : ∃ header,
    (Serializable.serialize base).Takes bytes none header ∧ header.signature = UInt32.ofNat (numeral (slice bytes 0 4)) ∧
      header.size.toNat = numeral (slice bytes 4 4) ∧ header.version.toList = slice bytes 8 16 ∧
      header.description.toList = slice bytes 24 512 ∧ header.portable = tellsPortable bytes := by
  obtain ⟨signature, rest, rfl, signature_size, length⟩ := exists_append 4 534 length
  obtain ⟨size, rest, rfl, size_size, length⟩ := exists_append 4 530 length
  obtain ⟨version, rest, rfl, version_size, length⟩ := exists_append 16 514 length
  obtain ⟨description, flags, rfl, description_size, length⟩ := exists_append 512 2 length
  obtain ⟨portable, reserved, rfl⟩ := two_bytes length
  refine ⟨⟨UInt32.ofNat (numeral signature), UInt32.ofNat (numeral size), ⟨version.toArray, version_size⟩,
    ⟨description.toArray, description_size⟩, portable != 0, reserved != 0⟩, ?_, ?_, ?_, ?_, ?_, ?_⟩
  · have fields : (Serializable.serialize base).Takes
        (signature ++ (size ++ (version ++ (description ++ ([portable] ++ ([reserved] ++ [])))))) none _ :=
      .bind (.word _ signature_size) (.bind (.word _ size_size) (.bind (.bytes _ version_size) (.bind (.bytes _ description_size)
        (.bind (.boolean _ portable) (.bind (.boolean _ reserved) (.pure _))))))
    exact fields
  · exact congrArg (fun bytes => UInt32.ofNat (numeral bytes)) (take_middle [] signature _ 0 4 rfl signature_size).symm
  · have small : numeral size < 2 ^ 32 := by
      have bound := numeral_lt size
      rwa [size_size] at bound
    have here : slice (signature ++ (size ++ (version ++ (description ++ [portable, reserved])))) 4 4 = size :=
      take_middle signature size _ 4 4 signature_size size_size
    rw [here, UInt32.toNat_ofNat', Nat.mod_eq_of_lt small]
  · have here := take_middle (signature ++ size) version (description ++ [portable, reserved]) 8 16 (by simp [*]) version_size
    rw [List.append_assoc] at here
    exact here.symm
  · have here := take_middle (signature ++ size ++ version) description [portable, reserved] 24 512 (by simp [*]) description_size
    simp only [List.append_assoc] at here
    exact here.symm
  · have here := take_middle (signature ++ size ++ version ++ description) [portable] [reserved] 536 1 (by simp [*]) rfl
    simp only [List.append_assoc] at here
    have flag : (portable != 0) = ([portable] != [0]) := by
      rw [Bool.eq_iff_iff]
      simp
    exact flag.trans (congrArg (· != [0]) here.symm)

theorem parse_long {first body : List UInt8} {header : Header}
    (takes : (Serializable.serialize (new 0 false "")).Takes first none header) (length : first.length = byteSize) :
    Header.parse (first ++ body).toArray = if header.signature = signatureWord then .ok header
      else .error (.invalidSignature header.signature) := by
  have holds : (Serializer.load (first ++ body).toArray).Holds first := ⟨[], body, by simp [Serializer.load], rfl⟩
  have enough : 4 ≤ (first ++ body).toArray.size := by
    rw [List.size_toArray, List.length_append, length, byteSize]
    omega
  rw [parse_def, takes.reads _ rfl holds]
  by_cases signed : header.signature = signatureWord
  · rw [if_pos signed]
    simp only [ne_eq, signed, not_true_eq_false, and_false, if_false]
    rfl
  · rw [if_neg signed]
    exact if_pos ⟨enough, signed⟩

end Snapshot.Header

namespace Console

variable {console : Console}

/-- The body of a snapshot that has the size of the machine's is taken for a machine, and refused if a field of it is. -/
theorem readBody_settles (few : kinds.length ≤ Cartridge.maxCoprocessors) (carries : console.cartridge.coprocessors = kinds)
    (seed : UInt64) {header : Header} {first body : List UInt8}
    (heads : (Serializable.serialize (Header.new 0 false "")).Takes first none header)
    (length : body.length = Machine.visitSize kinds header.portable) : ∃ machine,
      Settles (machine.serialize header.portable) ((coldBoot console.configuration console.cartridge seed
        (Machine.new console.cartridge.coprocessors)).serialize header.portable) body ((Layout.body kinds header.portable).tidy body)
        ((Layout.body kinds header.portable).refusal? body) ((Layout.body kinds header.portable).refusal? body = none) machine machine ∧
      readBody seed console header (first ++ body).toArray = match (Layout.body kinds header.portable).refusal? body with
        | none => .ok machine
        | some field => .error (.invalidValue field) := by
  obtain ⟨base, base_eq⟩ : ∃ base, coldBoot console.configuration console.cartridge seed
    (Machine.new console.cartridge.coprocessors) = base := ⟨_, rfl⟩
  have fresh : base.Fresh kinds := by
    rw [← base_eq, carries]
    exact Machine.new_fresh few (Seeding.ofEntropy console.configuration.entropy seed) console.cartridge.program
  rw [← Layout.size_body] at length
  obtain ⟨machine, settles⟩ := Machine.serialize_follows few header.portable fresh.sound.weaken body length
  have takes : (base.serialize header.portable).Takes body ((Layout.body kinds header.portable).refusal? body) machine := settles.takes
  have holds : (Serializer.load (first ++ body).toArray).Holds (first ++ body) :=
    ⟨[], [], by simp [Serializer.load], rfl⟩
  rw [readBody_accepts, base_eq, heads.reads _ rfl holds.left]
  refine ⟨machine, settles, ?_⟩
  generalize base.serialize header.portable = visit at takes
  generalize (Layout.body kinds header.portable).refusal? body = refused at takes
  rw [takes _ rfl holds.right]
  cases refused <;> rfl

theorem readBody_verdict (few : kinds.length ≤ Cartridge.maxCoprocessors) (carries : console.cartridge.coprocessors = kinds)
    (seed : UInt64) {header : Header} {first body : List UInt8}
    (heads : (Serializable.serialize (Header.new 0 false "")).Takes first none header)
    (length : body.length = Machine.visitSize kinds header.portable) :
    (readBody seed console header (first ++ body).toArray).map (fun _ => ()) =
      outcome ((Layout.body kinds header.portable).refusal? body) := by
  obtain ⟨machine, _, read⟩ := readBody_settles few carries seed heads length
  rw [read]
  cases (Layout.body kinds header.portable).refusal? body <;> rfl

/-- The checks of a console, which has the coprocessors of its cartridge. -/
def checks (console : Console) (bytes : List UInt8) : List Check :=
  Header.checks bytes (fun portable => (console.snapshotSize portable).1) ++
    (Layout.body console.cartridge.coprocessors (Header.tellsPortable bytes)).checks (bytes.drop Header.byteSize)

theorem checkHeader_eq (header : Header) (measured : Nat) (data : Array UInt8) : checkHeader header measured data =
    verdict [⟨header.size.toNat = data.size, .sizeMismatch header.size.toNat data.size⟩,
      ⟨measured = data.size, .sizeMismatch measured data.size⟩,
      ⟨header.version = FixedText.encode 16 Header.buildVersion, .versionMismatch Header.buildVersion header.versionText⟩] := by
  rw [checkHeader]
  by_cases told : header.size.toNat = data.size
  · rw [if_neg (not_not_intro told), verdict_pass (decide_eq_true told)]
    by_cases same : measured = data.size
    · rw [if_neg (not_not_intro same), verdict_pass (decide_eq_true same)]
      by_cases built : header.version = FixedText.encode 16 Header.buildVersion
      · rw [verdict_pass (decide_eq_true built)]
        exact if_pos built
      · rw [verdict_fail (decide_eq_false built)]
        exact if_neg built
    · rw [if_pos same, verdict_fail (decide_eq_false same)]
      rfl
  · rw [verdict_fail (decide_eq_false told), if_pos told]
    rfl

/-- A load finds a machine if all checks pass, and otherwise the error of the first one that fails. -/
theorem Steady.examine_verdict (steady : console.Steady .any kinds) (seed : UInt64) (data : Array UInt8) :
    (console.examine kinds seed data).map (fun _ => ()) = verdict (console.checks data.toList) := by
  by_cases short : data.size < Header.byteSize
  · obtain ⟨problem, parsed, refused⟩ := Header.parse_short short
    rw [checks, refused, examine, parsed]
    rfl
  · obtain ⟨bytes⟩ := data
    have length : bytes.length = Header.byteSize + (bytes.length - Header.byteSize) := by
      rw [List.size_toArray] at short
      omega
    obtain ⟨first, body, rfl, first_size, body_size⟩ := exists_append _ _ length
    obtain ⟨header, takes, signature, size, version, _, portable⟩ := Header.exists_takes (Header.new 0 false "") first_size
    have inside : ∀ {offset width : Nat}, offset + width ≤ 538 → slice (first ++ body) offset width = slice first offset width :=
      fun small => slice_append body (first_size ▸ small)
    have tells : Header.tellsPortable (first ++ body) = header.portable := by
      rw [Header.tellsPortable, inside (by decide), portable, Header.tellsPortable]
    have matched := Header.signature_matches (show (slice first 0 4).length = 4 by simp [slice, first_size, Header.byteSize])
    have whole : Header.byteSize ≤ (first ++ body).length := by
      rw [List.length_append]
      omega
    have present : 4 ≤ (first ++ body).length := Nat.le_trans (by decide) whole
    rw [examine, Header.parse_long takes first_size, checks, Header.checks, List.cons_append,
      verdict_pass (decide_eq_true present), List.cons_append, tells, steady.carries, inside (by decide)]
    -- With the right signature, the sizes and the version are judged before any field of the body.
    by_cases signed : numeral (slice first 0 4) = Header.signatureWord.toNat
    · rw [if_pos (by rw [signature]; exact matched.mpr signed), verdict_pass (decide_eq_true signed), List.cons_append,
        verdict_pass (decide_eq_true whole), inside (by decide), inside (by decide), ← size, ← version, steady.measured_size, forget_map, checkHeader_eq]
      have told : Check.mk (decide (header.version.toList = (FixedText.encode 16 Header.buildVersion).toList))
          (.versionMismatch Header.buildVersion (FixedText.decode header.version.toList.toArray)) =
          ⟨header.version = FixedText.encode 16 Header.buildVersion, .versionMismatch Header.buildVersion header.versionText⟩ := by
        simp only [Vector.toList_inj]
        rfl
      rw [told]
      refine (verdict_append fun fine => ?_).symm
      have accepted := (verdict_eq_ok _).mp fine ⟨_, _⟩ (List.mem_cons_of_mem _ List.mem_cons_self)
      have measured : Header.byteSize + Machine.visitSize kinds header.portable = (first ++ body).length := of_decide_eq_true accepted
      have inside_body : body.length = Machine.visitSize kinds header.portable := by
        rw [List.length_append, first_size] at measured
        omega
      rw [Layout.verdict_checks, ← first_size, List.drop_left]
      exact (readBody_verdict steady.few steady.carries seed takes inside_body).symm
    · rw [if_neg (by rw [signature]; exact fun same => signed (matched.mp same)), verdict_fail (decide_eq_false signed), signature]
      rfl

theorem checks_truncated (console : Console) (bytes : List UInt8)
    (truncated : verdict (console.checks bytes) = .error .truncated) : bytes.length < Header.byteSize := by
  by_contra whole
  have whole := Nat.le_of_not_lt whole
  obtain ⟨check, member, fails, error⟩ := verdict_eq_error truncated
  rcases List.mem_append.mp member with head | body
  · simp only [Header.checks, List.mem_cons, List.not_mem_nil, or_false] at head
    rcases head with rfl | rfl | rfl | rfl | rfl | rfl
    · exact of_decide_eq_false fails (Nat.le_trans (by decide) whole)
    · cases error
    · exact of_decide_eq_false fails whole
    · cases error
    · cases error
    · cases error
  · obtain ⟨field, invalid⟩ := Layout.error_of_mem_checks body
    cases invalid.symm.trans error

theorem Steady.load_verdict [Host ω] (steady : console.Steady .any kinds) (seed : UInt64) (data : Array UInt8) (host : ω) :
    ∃ later heard, console.load seed data host = (.ok (verdict (console.checks data.toList), later), heard) := by
  obtain ⟨later, heard, loads, _⟩ := steady.load_examines seed data host
  rw [steady.examine_verdict seed data] at loads
  exact ⟨later, heard, loads⟩

/-- A load answers with the first check that fails. A console accepts exactly the bytes that pass them all, and it calls no
bytes truncated that are as long as a header. -/
theorem Reached.load_checks [Host ω] (reached : console.Reached .any kinds) (seed : UInt64) (data : Array UInt8) (host : ω) :
    ∃ later heard, console.load seed data host = (.ok (verdict (console.checks data.toList), later), heard) ∧
      (verdict (console.checks data.toList) = .ok () ↔ ∀ check ∈ console.checks data.toList, check.passes = true) ∧
      (verdict (console.checks data.toList) = .error .truncated → data.size < Header.byteSize) := by
  obtain ⟨later, heard, loads⟩ := reached.steady.load_verdict seed data host
  exact ⟨later, heard, loads, verdict_eq_ok _, console.checks_truncated data.toList⟩

theorem Reached.load_checks_unsigned : sample.Reached .any [.multiplier, .rtc] ∧ ∃ later heard,
    sample.load 0 #[1, 2, 3, 4] () = (.ok (.error (.invalidSignature 0x04030201), later), heard) := by
  obtain ⟨later, heard, loads, _⟩ := Reached.load_checks (sample_reached .any) 0 #[1, 2, 3, 4] ()
  have refused : verdict (sample.checks [1, 2, 3, 4]) = .error (.invalidSignature 0x04030201) := by
    rw [checks, Header.checks, List.cons_append, verdict_pass (by decide), List.cons_append, verdict_fail (by decide)]
    rfl
  exact ⟨sample_reached .any, later, heard, refused ▸ loads⟩

/-- The header of a portable snapshot of a console with one coprocessor of each kind. -/
def overfullHead : List UInt8 :=
  [0x53, 0x52, 0x53, 0x31] ++ (littleEndian 4 131762 ++ ((FixedText.encode 16 Header.buildVersion).toList ++
    (List.replicate 512 0 ++ [1, 0])))

/-- Audio registers with more samples than there is room for, and with more units since the last one than it takes. -/
def overfullSmp : List UInt8 := List.replicate 4103 0 ++ ([255, 255, 255, 255] ++ (List.replicate 4096 0 ++ [255, 255]))

def overfullBody : List UInt8 :=
  List.replicate 8227 0 ++ ((littleEndian 4 Clock.cpuFrequency.toNat ++ List.replicate 28 0) ++
    ((littleEndian 4 Clock.smpFrequency.toNat ++ List.replicate 8 0 ++ overfullSmp) ++ List.replicate 114748 0))

theorem overfull_refusal {smp : Part} {field : String} {rest : Layout} (size : smp.size = 8205)
    (refused : smp.refusal? overfullSmp = some field) :
    Layout.refusal? ([Part.plain 8, Part.plain 0x2000, Part.latch, Part.latch, Part.latch] ++
      ([Part.clock Clock.cpuFrequency true, Part.cpu] ++ ([Part.clock Clock.smpFrequency false, smp] ++ rest))) overfullBody =
        some field := by
  have memory : Layout.refusal? [Part.plain 8, Part.plain 0x2000, Part.latch, Part.latch, Part.latch] (List.replicate 8227 0) = none := rfl
  have cpu : Layout.refusal? [Part.clock Clock.cpuFrequency true, Part.cpu]
      (littleEndian 4 Clock.cpuFrequency.toNat ++ List.replicate 28 0) = none := by decide
  have clock : (Part.clock Clock.smpFrequency false).refusal? (littleEndian 4 Clock.smpFrequency.toNat ++ List.replicate 8 0) = none := by
    decide
  have clock_size : (littleEndian 4 Clock.smpFrequency.toNat ++ List.replicate 8 (0 : UInt8)).length = (Part.clock Clock.smpFrequency false).size := rfl
  have registers_size : overfullSmp.length = Layout.size [smp] := by
    rw [Layout.size_cons, size, overfullSmp, List.length_append, List.length_append, List.length_append, List.length_replicate,
      List.length_replicate]
    rfl
  have audio : Layout.refusal? [Part.clock Clock.smpFrequency false, smp]
      (littleEndian 4 Clock.smpFrequency.toNat ++ List.replicate 8 0 ++ overfullSmp) = some field := by
    rw [Layout.refusal?_cons clock_size, clock, Layout.refusal?_single registers_size, refused]
    rfl
  have audio_size : (littleEndian 4 Clock.smpFrequency.toNat ++ List.replicate 8 0 ++ overfullSmp).length =
      Layout.size [Part.clock Clock.smpFrequency false, smp] := by
    rw [Layout.size_cons, List.length_append, clock_size, registers_size]
  have memory_size : (List.replicate 8227 (0 : UInt8)).length =
      Layout.size [Part.plain 8, Part.plain 0x2000, Part.latch, Part.latch, Part.latch] := List.length_replicate
  rw [overfullBody, Layout.refusal?_append memory_size, memory, Layout.refusal?_append rfl, cpu, Layout.refusal?_append audio_size, audio]
  rfl

theorem smp_refusal : Part.smp.refusal? overfullSmp = some "smp sample count" ∧
    Part.refusal? { Part.smp with rules := Part.smp.rules.insertionSort fun one other => one.offset ≤ other.offset } overfullSmp =
      some "smp sample units" := by
  have units : (overfullSmp.drop 4103).take 4 = [255, 255, 255, 255] :=
    take_middle _ _ _ 4103 4 List.length_replicate rfl
  have count : (overfullSmp.drop 8203).take 2 = [255, 255] := by
    have before : (List.replicate 4103 (0 : UInt8) ++ [255, 255, 255, 255] ++ List.replicate 4096 0).length = 8203 := by
      rw [List.length_append, List.length_append, List.length_replicate, List.length_replicate]
      rfl
    have here := take_middle _ [255, 255] [] 8203 2 before rfl
    rwa [List.append_nil, List.append_assoc, List.append_assoc] at here
  constructor
  · rw [Part.smp, Part.refusal?_cons, Rule.refusal?, Rule.content, count]
    rfl
  · have turned : Part.smp.rules.insertionSort (fun one other => one.offset ≤ other.offset) = Part.smp.rules.reverse := rfl
    rw [turned]
    refine (Part.refusal?_cons _ _ _).trans ?_
    rw [Rule.refusal?, Rule.content, units]
    rfl

theorem overfull_size : overfullHead.length = 538 ∧ (overfullHead ++ overfullBody).length = 131762 := by
  have head : overfullHead.length = 538 := by
    simp only [overfullHead, List.length_append, List.length_replicate, length_littleEndian, Vector.length_toList, List.length_cons,
      List.length_nil]
  have smp : overfullSmp.length = 8205 := by
    simp only [overfullSmp, List.length_append, List.length_replicate, List.length_cons, List.length_nil]
  refine ⟨head, ?_⟩
  simp only [overfullBody, List.length_append, List.length_replicate, length_littleEndian, head, smp]

theorem overfull_portable : Header.tellsPortable (overfullHead ++ overfullBody) = true := by
  rw [Header.tellsPortable, slice_append _ (overfull_size.1 ▸ by decide)]
  decide +kernel

/-- The header of such a snapshot passes all checks. -/
theorem overfull_head : verdict (Header.checks (overfullHead ++ overfullBody) fun portable => (sample.snapshotSize portable).1) = .ok () := by
  have inside : ∀ {offset width : Nat}, offset + width ≤ 538 →
      slice (overfullHead ++ overfullBody) offset width = slice overfullHead offset width :=
    fun small => slice_append overfullBody (overfull_size.1 ▸ small)
  have size : Machine.visitSize [.multiplier, .rtc] true = 131224 := rfl
  rw [Header.checks, overfull_portable, snapshotSize_eq, (Console.measured true sample_fresh.sound).1, size, overfull_size.2]
  rw [verdict_pass (by decide), inside (by decide), verdict_pass (by decide), verdict_pass (by decide), inside (by decide),
    verdict_pass (by decide), verdict_pass (by decide), inside (by decide), verdict_pass (by decide)]
  rfl

/-- Of two fields that are both refused, the error does not name the one that comes first in the bytes. -/
theorem load_checks_unsorted : ∃ later heard,
    sample.load 0 (overfullHead ++ overfullBody).toArray () = (.ok (.error (.invalidValue "smp sample count"), later), heard) ∧
      verdict (Header.checks (overfullHead ++ overfullBody) (fun portable => (sample.snapshotSize portable).1) ++
        (Layout.body sample.cartridge.coprocessors (Header.tellsPortable (overfullHead ++ overfullBody))).sorted.checks
          ((overfullHead ++ overfullBody).drop Header.byteSize)) = .error (.invalidValue "smp sample units") := by
  obtain ⟨later, heard, loads⟩ := (sample_reached .any).steady.load_verdict 0 (overfullHead ++ overfullBody).toArray ()
  have body : (overfullHead ++ overfullBody).drop Header.byteSize = overfullBody := by
    rw [show Header.byteSize = overfullHead.length from overfull_size.1.symm, List.drop_left]
  have refused : verdict (sample.checks (overfullHead ++ overfullBody)) = .error (.invalidValue "smp sample count") := by
    rw [checks, verdict_append_of_ok overfull_head, Layout.verdict_checks, overfull_portable, body]
    exact congrArg outcome (overfull_refusal rfl smp_refusal.1)
  refine ⟨later, heard, refused ▸ loads, ?_⟩
  rw [verdict_append_of_ok overfull_head, Layout.verdict_checks, overfull_portable, body]
  exact congrArg outcome (overfull_refusal rfl smp_refusal.2)

end Console
end MultiClock
