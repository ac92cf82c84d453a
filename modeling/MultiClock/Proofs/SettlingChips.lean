import MultiClock.Proofs.ChipVisits
import MultiClock.Proofs.SettlingReaders

/-! What the chips and the bus make of any bytes. A chip takes the bytes of its parts and puts defaults in the place of
what they refuse. If they refuse nothing, it writes the bytes tidily. -/

namespace MultiClock

open Visit Snapshot

variable {bytes : List UInt8}

/-- A chip takes its registers and then what it has in flight. -/
theorem Chip.follows [Chip χ] {κ : Type} {base : χ} {registers work : Part} (put : χ → κ → χ) (kept : κ)
    (here : ∀ bytes : List UInt8, bytes.length = registers.size → ∃ value, ∀ flight : κ,
      Settles (Chip.serialize (put value flight)) (Chip.serialize base) bytes (registers.tidy bytes) (registers.refusal? bytes)
        (registers.refusal? bytes = none) (put value flight) (put value kept))
    (there : ∀ bytes : List UInt8, bytes.length = work.size → ∃ flight : κ, ∀ value,
      Settles (Chip.serializeStack (put value flight)) (Chip.serializeStack (put value kept)) bytes (work.tidy bytes)
        (work.refusal? bytes) (work.refusal? bytes = none) (put value flight) (put value flight)) (stack : Bool) :
    Follows (Chip.visit stack) base (registers :: if stack then [work] else []) := by
  intro bytes length
  cases stack with
  | false =>
    have size : bytes.length = registers.size := length
    obtain ⟨value, settles⟩ := here bytes size
    refine ⟨put value kept, ?_⟩
    rw [if_neg Bool.false_ne_true, Layout.refusal?_single size, Layout.tidy_single size]
    exact .of_eq (.bind (settles kept) (.pure _ _)) (by simp) (by simp) (by simp)
  | true =>
    rw [if_pos rfl] at length ⊢
    obtain ⟨first, rest, rfl, first_size, rest_size⟩ := exists_append _ _ length
    obtain ⟨value, settles⟩ := here first first_size
    obtain ⟨flight, continues⟩ := there rest rest_size
    refine ⟨put value flight, ?_⟩
    rw [Layout.refusal?_cons first_size, Layout.tidy_cons first_size, Layout.refusal?_single rest_size,
      Layout.tidy_single rest_size]
    exact .bind ((settles flight).mono fun fine => (Option.or_eq_none_iff.mp fine).1)
      ((continues value).mono fun fine => (Option.or_eq_none_iff.mp fine).2)

theorem four_bytes (length : bytes.length = 4) : ∃ tag code operand extra, bytes = [tag, code, operand, extra] := by
  match bytes, length with
  | [tag, code, operand, extra], _ => exact ⟨tag, code, operand, extra, rfl⟩

theorem three_bytes (length : bytes.length = 3) : ∃ tag low high, bytes = [tag, low, high] := by
  match bytes, length with
  | [tag, low, high], _ => exact ⟨tag, low, high, rfl⟩

theorem two_bytes (length : bytes.length = 2) : ∃ first second, bytes = [first, second] := by
  match bytes, length with
  | [first, second], _ => exact ⟨first, second, rfl⟩

theorem tag_cases (tag : UInt8) : tag = 0 ∨ tag = 1 ∨ tag = 2 ∨ tag = 3 ∨ 3 < tag.toNat := by
  simp only [← UInt8.toNat_inj, UInt8.reduceToNat]
  omega

theorem apart_of_large {tag : UInt8} (large : 3 < tag.toNat) : tag ≠ 0 ∧ tag ≠ 1 ∧ tag ≠ 2 ∧ tag ≠ 3 := by
  simp only [ne_eq, ← UInt8.toNat_inj, UInt8.reduceToNat]
  omega

theorem Part.refusal?_work {field : String} {opcodes : UInt8} {reference : Bool} (length : bytes.length = 4) :
    (Part.work field opcodes reference).refusal? bytes =
      if Part.knowsWork opcodes reference bytes then none else some field := by
  rw [Part.work, Part.refusal?_cons, Part.refusal?_nil, Option.or_none, Rule.refusal?, Rule.content, List.drop_zero, ← length,
    List.take_length]

namespace Latch

theorem settles (base : Latch) (length : bytes.length = 9) : ∃ latch : Latch, ∀ sane,
    Settles (Serializable.serialize latch) (Serializable.serialize base) bytes (Part.latch.tidy bytes) none sane latch latch := by
  obtain ⟨input, rest, rfl, input_size, length⟩ := exists_append 4 5 length
  obtain ⟨output, rest, rfl, output_size, length⟩ := exists_append 4 1 length
  obtain ⟨strobe, rfl⟩ := List.length_eq_one_iff.mp length
  refine ⟨⟨⟨input.toArray, input_size⟩, ⟨output.toArray, output_size⟩, strobe != 0⟩, fun sane => ?_⟩
  refine .of_eq (.bind (.bytes _ _) (.bind (.bytes _ _) (.bind (.boolean _ strobe) (.pure _ _)))) (by simp) ?_ (by simp)
  have cut := modify_middle (input ++ output) [] strobe 8 Part.flag (by simp [*])
  rw [List.append_assoc, List.append_assoc] at cut
  simp [Part.latch, cut]

end Latch

theorem Bus.follows (base : Bus) : Follows Serializable.serialize base
    (Part.plain 0x2000 :: Part.latch :: List.replicate base.coprocessors.size Part.latch) := by
  intro bytes length
  rw [Layout.size_cons, Layout.size_cons, Layout.size_replicate] at length
  obtain ⟨memory, rest, rfl, memory_size, length⟩ := exists_append _ _ length
  obtain ⟨first, others, rfl, first_size, length⟩ := exists_append _ _ length
  obtain ⟨apu, latched⟩ := base.apu.settles first_size
  have each : ∀ latch ∈ base.coprocessors, ∀ bytes : List UInt8, bytes.length = Part.latch.size → ∃ value : Latch,
      Settles (Serializable.serialize value) (Serializable.serialize latch) bytes (Part.latch.tidy bytes)
        (Part.latch.refusal? bytes) (Part.latch.refusal? bytes = none) value value := by
    intro latch _ bytes size
    obtain ⟨value, settles⟩ := latch.settles size
    exact ⟨value, settles _⟩
  obtain ⟨coprocessors, _, settles⟩ := Settles.array each length
  refine ⟨⟨⟨memory.toArray, memory_size⟩, apu, coprocessors⟩, ?_⟩
  rw [Layout.refusal?_cons memory_size, Layout.tidy_cons memory_size, Layout.refusal?_cons first_size,
    Layout.tidy_cons first_size]
  have quiet : ∀ others, ((Part.plain 0x2000).refusal? memory).or ((Part.latch.refusal? first).or others) = others := fun _ => rfl
  rw [quiet]
  exact .of_eq (.bind (.bytes _ _) (.bind (latched _) (.bind settles (.pure _ _)))) (by simp) (by simp [Part.plain]) (by simp)

namespace Cpu

theorem Opcode.isSome_ofCode? (code : UInt8) : (ofCode? code).isSome = decide (code < 8) := by
  unfold ofCode?
  split <;> simp_all

theorem Opcode.code_decode {code : UInt8} (small : code < 8) : (decode code).code = code := by
  have every : ∀ number < 8, (decode (UInt8.ofNat number)).code = UInt8.ofNat number := by decide
  have same := every code.toNat (UInt8.lt_iff_toNat_lt.mp small)
  rwa [UInt8.ofNat_toNat] at same

theorem Opcode.code_of_ofCode? {code : UInt8} {opcode : Opcode} (known : ofCode? code = some opcode) : opcode.code = code := by
  unfold ofCode? at known
  split at known
  next small =>
    cases known
    exact code_decode small
  next => cases known

namespace Continuation

theorem decode?_large {tag : UInt8} (large : 3 < tag.toNat) (code operand extra : UInt8) :
    decode? tag code operand extra = none := by
  unfold decode?
  split <;> first | omega | rfl

def decodeBytes : List UInt8 → Option Continuation
  | [tag, code, operand, extra] => decode? tag code operand extra
  | _ => none

def encodeBytes (continuation : Continuation) : List UInt8 :=
  [continuation.encode.1, continuation.encode.2.1, continuation.encode.2.2.1, continuation.encode.2.2.2]

theorem isSome_decodeBytes (length : bytes.length = 4) : (decodeBytes bytes).isSome = Part.knowsWork 8 true bytes := by
  obtain ⟨tag, code, operand, extra, rfl⟩ := four_bytes length
  rcases tag_cases tag with rfl | rfl | rfl | rfl | large
  · rfl
  · simp [Part.knowsWork, decodeBytes, decode?, Opcode.isSome_ofCode?]
  · simp [Part.knowsWork, decodeBytes, decode?, Opcode.isSome_ofCode?]
  · simp [Part.knowsWork, decodeBytes, decode?]
  · simp [Part.knowsWork, decodeBytes, apart_of_large large, decode?_large large]

theorem encodeBytes_of_decodeBytes (length : bytes.length = 4) {continuation : Continuation}
    (found : decodeBytes bytes = some continuation) : continuation.encodeBytes = Part.tidyWork bytes := by
  obtain ⟨tag, code, operand, extra, rfl⟩ := four_bytes length
  rcases tag_cases tag with rfl | rfl | rfl | rfl | large
  · cases found
    rfl
  · obtain ⟨opcode, known, rfl⟩ := Option.map_eq_some_iff.mp found
    rw [← Opcode.code_of_ofCode? known]
    rfl
  · obtain ⟨opcode, known, rfl⟩ := Option.map_eq_some_iff.mp found
    rw [← Opcode.code_of_ofCode? known]
    simp [encodeBytes, encode, Part.tidyWork, Part.flag]
  · cases found
    rfl
  · rw [decodeBytes, decode?_large large] at found
    cases found

theorem settles (base : Continuation) (length : bytes.length = 4) :
    Settles ((decodeBytes bytes).getD idle).serialize base.serialize bytes (Part.tidyWork bytes)
      ((Part.work "cpu continuation" 8 true).refusal? bytes) ((Part.work "cpu continuation" 8 true).refusal? bytes = none)
      ((decodeBytes bytes).getD idle) ((decodeBytes bytes).getD idle) := by
  have takes : ∀ others : List UInt8, others.length = bytes.length → base.serialize.Takes others
      (if (decodeBytes others).isSome then none else some "cpu continuation") ((decodeBytes others).getD idle) := by
    intro others same
    obtain ⟨tag, code, operand, extra, rfl⟩ := four_bytes (same.trans length)
    simp only [serialize, decodeBytes]
    exact .bind (.byte _ tag) (.bind (.byte _ code) (.bind (.byte _ operand) (.bind (.byte _ extra)
      (.decoded "cpu continuation" idle (by cases decode? tag code operand extra <;> rfl)))))
  have writes : ∀ continuation : Continuation, continuation.serialize.Writes continuation continuation.encodeBytes := by
    intro continuation
    simp only [serialize]
    change Writes _ _ ([_] ++ ([_] ++ ([_] ++ ([_] ++ []))))
    refine .bind (byte_writes _) (.bind (byte_writes _) (.bind (byte_writes _) (.bind (byte_writes _) ?_)))
    rw [continuation.decode?_encode]
    exact .pure continuation
  rw [Part.refusal?_work length, ← isSome_decodeBytes length]
  exact .coded takes writes decode?_encode (fun _ => length.symm) (fun _ => encodeBytes_of_decodeBytes length) accepted_of_none

end Continuation

theorem refusal?_part (before after : List UInt8) {units : List UInt8} (offset : before.length = 8) (width : units.length = 4) :
    Part.cpu.refusal? (before ++ (units ++ after)) =
      if decide ((Word.ofNat (numeral units) : UInt32) ≤ 2 * catchupThreshold) then none else some "cpu catch-up units" := by
  have number : (Word.ofNat (numeral units) : UInt32).toNat = numeral units := Word.toNat_numeral (α := UInt32) width
  have same : decide ((Word.ofNat (numeral units) : UInt32) ≤ 2 * catchupThreshold) =
      decide (numeral units ≤ 2 * catchupThreshold.toNat) := by
    rw [decide_eq_decide, UInt32.le_iff_toNat_le, number]
    rfl
  rw [Part.cpu, Part.refusal?_cons, Part.refusal?_nil, Option.or_none, Rule.refusal?, Rule.content, take_middle before units after 8 4 offset width, same]

theorem registers_settle (base : Cpu) (length : bytes.length = 20) : ∃ value : Cpu, ∀ continuation,
    Settles (Chip.serialize { value with continuation }) (Chip.serialize base) bytes bytes (Part.cpu.refusal? bytes)
      (Part.cpu.refusal? bytes = none) { value with continuation } { value with continuation := base.continuation } := by
  obtain ⟨a, rest, rfl, a_size, length⟩ := exists_append 2 18 length
  obtain ⟨x, rest, rfl, x_size, length⟩ := exists_append 2 16 length
  obtain ⟨pc, rest, rfl, pc_size, length⟩ := exists_append 2 14 length
  obtain ⟨lfsr, rest, rfl, lfsr_size, length⟩ := exists_append 2 12 length
  obtain ⟨units, instructions, rfl, units_size, instructions_size⟩ := exists_append 4 8 length
  have checks := refusal?_part (a ++ x ++ pc ++ lfsr) instructions (by simp [*]) units_size
  simp only [List.append_assoc] at checks
  rw [checks]
  refine ⟨{ base with
    a := Word.ofNat (numeral a), x := Word.ofNat (numeral x), pc := Word.ofNat (numeral pc), lfsr := Word.ofNat (numeral lfsr),
    catchupUnits := if decide ((Word.ofNat (numeral units) : UInt32) ≤ 2 * catchupThreshold) then Word.ofNat (numeral units) else 0,
    instructions := Word.ofNat (numeral instructions) }, fun continuation => ?_⟩
  simp only [Chip.serialize, serialize]
  exact .of_eq (.bind (.word _ a_size fun _ => rfl) (.bind (.word _ x_size fun _ => rfl) (.bind (.word _ pc_size fun _ => rfl)
    (.bind (.word _ lfsr_size fun _ => rfl) (.bind (.word _ units_size fun fine => if_pos (accepted_of_none fine))
    (.bind (.word _ instructions_size fun _ => rfl) (.bind (.require _ _ _ accepted_of_none) (.pure _ _))))))))
    (by simp) (by simp) (by simp)

theorem follows (base : Cpu) : ∀ stack, Follows (Chip.visit stack) base
    (Part.cpu :: if stack then [Part.work "cpu continuation" 8 true] else []) :=
  Chip.follows (fun cpu continuation => { cpu with continuation }) base.continuation (fun _ => base.registers_settle)
    fun _ length => ⟨_, fun _ => .of_eq (.bind (base.continuation.settles length) (.pure _ _)) (by simp) (by simp; rfl) (by simp)⟩

end Cpu

namespace Smp

theorem Opcode.isSome_ofCode? (code : UInt8) : (ofCode? code).isSome = decide (code < 4) := by
  unfold ofCode?
  split <;> simp_all

theorem Opcode.code_decode {code : UInt8} (small : code < 4) : (decode code).code = code := by
  have every : ∀ number < 4, (decode (UInt8.ofNat number)).code = UInt8.ofNat number := by decide
  have same := every code.toNat (UInt8.lt_iff_toNat_lt.mp small)
  rwa [UInt8.ofNat_toNat] at same

theorem Opcode.code_of_ofCode? {code : UInt8} {opcode : Opcode} (known : ofCode? code = some opcode) : opcode.code = code := by
  unfold ofCode? at known
  split at known
  next small =>
    cases known
    exact code_decode small
  next => cases known

namespace Continuation

theorem decode?_large {tag : UInt8} (large : 2 < tag.toNat) (code operand extra : UInt8) :
    decode? tag code operand extra = none := by
  unfold decode?
  split <;> first | omega | rfl

def decodeBytes : List UInt8 → Option Continuation
  | [tag, code, operand, extra] => decode? tag code operand extra
  | _ => none

def encodeBytes (continuation : Continuation) : List UInt8 :=
  [continuation.encode.1, continuation.encode.2.1, continuation.encode.2.2.1, continuation.encode.2.2.2]

theorem isSome_decodeBytes (length : bytes.length = 4) : (decodeBytes bytes).isSome = Part.knowsWork 4 false bytes := by
  obtain ⟨tag, code, operand, extra, rfl⟩ := four_bytes length
  rcases tag_cases tag with rfl | rfl | rfl | rfl | large
  · rfl
  · simp [Part.knowsWork, decodeBytes, decode?, Opcode.isSome_ofCode?]
  · simp [Part.knowsWork, decodeBytes, decode?, Opcode.isSome_ofCode?]
  · rfl
  · simp [Part.knowsWork, decodeBytes, apart_of_large large, decode?_large (Nat.lt_of_succ_lt large)]

theorem encodeBytes_of_decodeBytes (length : bytes.length = 4) {continuation : Continuation}
    (found : decodeBytes bytes = some continuation) : continuation.encodeBytes = Part.tidyWork bytes := by
  obtain ⟨tag, code, operand, extra, rfl⟩ := four_bytes length
  rcases tag_cases tag with rfl | rfl | rfl | rfl | large
  · cases found
    rfl
  · obtain ⟨opcode, known, rfl⟩ := Option.map_eq_some_iff.mp found
    rw [← Opcode.code_of_ofCode? known]
    rfl
  · obtain ⟨opcode, known, rfl⟩ := Option.map_eq_some_iff.mp found
    rw [← Opcode.code_of_ofCode? known]
    simp [encodeBytes, encode, Part.tidyWork, Part.flag]
  · cases found
  · rw [decodeBytes, decode?_large (Nat.lt_of_succ_lt large)] at found
    cases found

theorem settles (base : Continuation) (length : bytes.length = 4) :
    Settles ((decodeBytes bytes).getD idle).serialize base.serialize bytes (Part.tidyWork bytes)
      ((Part.work "smp continuation" 4 false).refusal? bytes) ((Part.work "smp continuation" 4 false).refusal? bytes = none)
      ((decodeBytes bytes).getD idle) ((decodeBytes bytes).getD idle) := by
  have takes : ∀ others : List UInt8, others.length = bytes.length → base.serialize.Takes others
      (if (decodeBytes others).isSome then none else some "smp continuation") ((decodeBytes others).getD idle) := by
    intro others same
    obtain ⟨tag, code, operand, extra, rfl⟩ := four_bytes (same.trans length)
    simp only [serialize, decodeBytes]
    exact .bind (.byte _ tag) (.bind (.byte _ code) (.bind (.byte _ operand) (.bind (.byte _ extra)
      (.decoded "smp continuation" idle (by cases decode? tag code operand extra <;> rfl)))))
  have writes : ∀ continuation : Continuation, continuation.serialize.Writes continuation continuation.encodeBytes := by
    intro continuation
    simp only [serialize]
    change Writes _ _ ([_] ++ ([_] ++ ([_] ++ ([_] ++ []))))
    refine .bind (byte_writes _) (.bind (byte_writes _) (.bind (byte_writes _) (.bind (byte_writes _) ?_)))
    rw [continuation.decode?_encode]
    exact .pure continuation
  rw [Part.refusal?_work length, ← isSome_decodeBytes length]
  exact .coded takes writes decode?_encode (fun _ => length.symm) (fun _ => encodeBytes_of_decodeBytes length) accepted_of_none

end Continuation

/-- The count of the samples is checked before the units of the next one. -/
theorem refusal?_part (before : List UInt8) {units buffer count : List UInt8} (offset : before.length = 4103) (width : units.length = 4)
    (samples : buffer.length = 4096) (size : count.length = 2) : Part.smp.refusal? (before ++ (units ++ (buffer ++ count))) =
      (if decide ((Word.ofNat (numeral count) : UInt16).toNat ≤ sampleCapacity) then none else some "smp sample count" : Option String).or
        (if decide ((Word.ofNat (numeral units) : UInt32) < sampleUnits) then none else some "smp sample units") := by
  have number : (Word.ofNat (numeral count) : UInt16).toNat = numeral count := Word.toNat_numeral (α := UInt16) size
  have amount : (Word.ofNat (numeral units) : UInt32).toNat = numeral units := Word.toNat_numeral (α := UInt32) width
  have last := take_middle (before ++ units ++ buffer) count [] 8203 2 (by simp [*]) size
  simp only [List.append_assoc, List.append_nil] at last
  rw [Part.smp, Part.refusal?_cons, Part.refusal?_cons, Part.refusal?_nil, Option.or_none, Rule.refusal?, Rule.refusal?,
    Rule.content, Rule.content, take_middle before units (buffer ++ count) 4103 4 offset width, last, number]
  simp only [UInt32.lt_iff_toNat_lt, amount]

theorem sample_settles (base : Int16) (length : bytes.length = 2) : ∃ sample : Int16,
    Settles (Serializable.serialize sample) (Serializable.serialize base) bytes bytes none True sample sample :=
  ⟨Word.ofNat (numeral bytes), .word base length fun _ => rfl⟩

/-- Only the bits of an address count. -/
theorem counter_settles (low high : UInt8) (base : Fin 0x1000) : ∃ pc : Fin 0x1000, ∀ sane,
    Settles ((fun word : UInt16 => address word.toNat) <$> Serializer.word (UInt16.ofNat pc))
      ((fun word : UInt16 => address word.toNat) <$> Serializer.word (UInt16.ofNat base)) [low, high] [low, high &&& 0x0F] none
      sane pc pc := by
  have first := low.toNat_lt
  have second := high.toNat_lt
  have masked : (high &&& 0x0F).toNat = high.toNat % 16 := by
    rw [UInt8.toNat_and]
    exact Nat.and_two_pow_sub_one_eq_mod high.toNat 4
  have number : ∀ high : UInt8, (Word.ofNat (numeral [low, high]) : UInt16).toNat = low.toNat + 256 * high.toNat := by
    intro high
    have size : [low, high].length = Word.size UInt16 := rfl
    exact Word.toNat_numeral size
  have same : address (low.toNat + 256 * (high &&& 0x0F).toNat) = address (low.toNat + 256 * high.toNat) := by
    refine Fin.ext ?_
    simp only [address]
    omega
  have takes : ∀ high : UInt8, Takes ((fun word : UInt16 => address word.toNat) <$> Serializer.word (UInt16.ofNat base))
      [low, high] none (address (low.toNat + 256 * high.toNat)) := by
    intro high
    rw [← number]
    exact .map _ (.word _ rfl)
  refine ⟨address (low.toNat + 256 * high.toNat), fun sane => ⟨takes high, fun _ => ?_, fun _ => same ▸ (takes (high &&& 0x0F)).reads⟩⟩
  have position : UInt16.ofNat (address (low.toNat + 256 * high.toNat)) = Word.ofNat (numeral [low, high &&& 0x0F]) := by
    rw [← UInt16.toNat_inj, number, ← same, UInt16.toNat_ofNat']
    simp only [address]
    omega
  have size : [low, high &&& 0x0F].length = Word.size UInt16 := rfl
  have settles := Settles.word (UInt16.ofNat base) size fun _ : True => position
  have writes := (settles.writes trivial).map fun word : UInt16 => address word.toNat
  rwa [number, same] at writes

/-- The visitor with the program counter taken as an address at once. -/
theorem serialize_eq (smp : Smp) : Chip.serialize smp = (do
    let ram ← Serializer.bytes smp.ram
    let a ← Serializer.word smp.a
    let pc ← (fun word : UInt16 => address word.toNat) <$> Serializer.word (UInt16.ofNat smp.pc)
    let mix ← Serializer.word smp.mix
    let elapsed ← Serializer.word smp.elapsed
    let buffer ← Serializer.array smp.buffer
    let sampleCount ← Serializer.word smp.sampleCount
    let sampleCount ← Serializer.require "smp sample count" (sampleCount.toNat ≤ sampleCapacity) sampleCount 0
    let elapsed ← Serializer.require "smp sample units" (elapsed < sampleUnits) elapsed 0
    return ⟨ram, a, pc, mix, elapsed, buffer, sampleCount, smp.continuation⟩) := rfl

theorem registers_settle (base : Smp) (length : bytes.length = 8205) : ∃ value : Smp, ∀ continuation,
    Settles (Chip.serialize { value with continuation }) (Chip.serialize base) bytes (Part.smp.tidy bytes) (Part.smp.refusal? bytes)
      (Part.smp.refusal? bytes = none) { value with continuation } { value with continuation := base.continuation } := by
  obtain ⟨ram, rest, rfl, ram_size, length⟩ := exists_append 4096 4109 length
  obtain ⟨a, rest, rfl, a_size, length⟩ := exists_append 1 4108 length
  obtain ⟨counter, rest, rfl, counter_size, length⟩ := exists_append 2 4106 length
  obtain ⟨mix, rest, rfl, mix_size, length⟩ := exists_append 4 4102 length
  obtain ⟨units, rest, rfl, units_size, length⟩ := exists_append 4 4098 length
  obtain ⟨samples, count, rfl, samples_size, count_size⟩ := exists_append 4096 2 length
  obtain ⟨low, high, rfl⟩ := two_bytes counter_size
  obtain ⟨pc, counter⟩ := counter_settles low high base.pc
  obtain ⟨buffer, sampled⟩ := Settles.vector (fun base _ => sample_settles base) base.buffer (show samples.length = 2048 * 2 from samples_size)
  have checks := refusal?_part (ram ++ a ++ [low, high] ++ mix) (by simp [*]) units_size samples_size count_size
  have cut := modify_middle (ram ++ a ++ [low]) (mix ++ (units ++ (samples ++ count))) high 4098 (· &&& 0x0F) (by simp [*])
  simp only [List.append_assoc, List.cons_append, List.nil_append] at checks cut ⊢
  rw [checks]
  refine ⟨⟨⟨ram.toArray, ram_size⟩, Word.ofNat (numeral a), pc, Word.ofNat (numeral mix),
    if decide ((Word.ofNat (numeral units) : UInt32) < sampleUnits) then Word.ofNat (numeral units) else 0, buffer,
    if decide ((Word.ofNat (numeral count) : UInt16).toNat ≤ sampleCapacity) then Word.ofNat (numeral count) else 0,
    base.continuation⟩, fun continuation => ?_⟩
  rw [serialize_eq, serialize_eq]
  exact .of_eq (.bind (.bytes _ ram_size) (.bind (.word _ a_size fun _ => rfl) (.bind (counter _)
    (.bind (.word _ mix_size fun _ => rfl) (.bind (.word _ units_size fun all => if_pos (both_accepted_of_none all).2)
    (.bind (sampled _) (.bind (.word _ count_size fun all => if_pos (both_accepted_of_none all).1)
    (.bind (.require _ _ _ fun all => (both_accepted_of_none all).1)
    (.bind (.require _ _ _ fun all => (both_accepted_of_none all).2) (.pure _ _))))))))))
    (by simp) (by simp [Part.smp, cut]) (by simp)

theorem follows (base : Smp) : ∀ stack, Follows (Chip.visit stack) base
    (Part.smp :: if stack then [Part.work "smp continuation" 4 false] else []) :=
  Chip.follows (fun smp continuation => { smp with continuation }) base.continuation (fun _ => base.registers_settle)
    fun _ length => ⟨_, fun _ => .of_eq (.bind (base.continuation.settles length) (.pure _ _)) (by simp) (by simp; rfl) (by simp)⟩

end Smp

namespace Ppu
namespace Continuation

def decodeBytes : List UInt8 → Option Continuation
  | [tag, low, high] => decode? tag (Word.ofNat (numeral [low, high]))
  | _ => none

def encodeBytes (continuation : Continuation) : List UInt8 :=
  continuation.encode.1 :: littleEndian 2 continuation.encode.2.toNat

theorem decode?_large {tag : UInt8} (large : 3 < tag.toNat) (dot : UInt16) : decode? tag dot = none := by
  unfold decode?
  split <;> first | omega | rfl

theorem decode?_line (dot : UInt16) :
    decode? 1 dot = if inside : dot.toNat < 341 then some (line ⟨dot.toNat, inside⟩) else none := rfl

theorem number_dot (low high : UInt8) : (Word.ofNat (numeral [low, high]) : UInt16).toNat = numeral [low, high] := by
  have size : [low, high].length = Word.size UInt16 := rfl
  exact Word.toNat_numeral size

theorem refusal?_part (tag low high : UInt8) : Part.ppuWork.refusal? [tag, low, high] =
    if (decodeBytes [tag, low, high]).isSome then none else some "ppu continuation" := by
  have accepts : (decodeBytes [tag, low, high]).isSome =
      (tag = 0 || tag = 1 && numeral [low, high] < dotsPerLine || tag = 2 || tag = 3) := by
    rcases tag_cases tag with rfl | rfl | rfl | rfl | large
    · rfl
    · have inside : ∀ dot, (decode? 1 dot).isSome = decide (dot.toNat < dotsPerLine) := by
        intro dot
        rw [decode?_line]
        by_cases inside : dot.toNat < 341 <;> simp [inside, dotsPerLine]
      simp [decodeBytes, inside, number_dot]
    · rfl
    · rfl
    · simp [decodeBytes, apart_of_large large, decode?_large large]
  rw [Part.ppuWork, Part.refusal?_cons, Part.refusal?_nil, Option.or_none, Rule.refusal?, accepts]
  rfl

theorem encodeBytes_of_decodeBytes {tag low high : UInt8} {continuation : Continuation}
    (found : decodeBytes [tag, low, high] = some continuation) : continuation.encodeBytes = Part.ppuWork.tidy [tag, low, high] := by
  rcases tag_cases tag with rfl | rfl | rfl | rfl | large
  · cases found
    rfl
  · rw [decodeBytes, decode?_line] at found
    split at found
    next inside =>
      cases found
      have dot : littleEndian 2 (UInt16.ofNat (numeral [low, high])).toNat = [low, high] :=
        (congrArg (littleEndian 2) (number_dot low high)).trans (littleEndian_numeral [low, high])
      simp only [encodeBytes, encode, number_dot, dot]
      rfl
    next => cases found
  · cases found
    rfl
  · cases found
    rfl
  · rw [decodeBytes, decode?_large large] at found
    cases found

theorem decodeBytes_encodeBytes (continuation : Continuation) : decodeBytes continuation.encodeBytes = some continuation := by
  have dot : (Word.ofNat (numeral (littleEndian 2 continuation.encode.2.toNat)) : UInt16) = continuation.encode.2 := by
    rw [numeral_littleEndian continuation.encode.2.toNat_lt]
    exact UInt16.ofNat_toNat
  exact (congrArg (decode? continuation.encode.1) dot).trans continuation.decode?_encode

theorem settles (base : Continuation) (length : bytes.length = 3) :
    Settles ((decodeBytes bytes).getD idle).serialize base.serialize bytes (Part.ppuWork.tidy bytes)
      (Part.ppuWork.refusal? bytes) (Part.ppuWork.refusal? bytes = none) ((decodeBytes bytes).getD idle)
      ((decodeBytes bytes).getD idle) := by
  have takes : ∀ others : List UInt8, others.length = bytes.length → base.serialize.Takes others
      (if (decodeBytes others).isSome then none else some "ppu continuation") ((decodeBytes others).getD idle) := by
    intro others same
    obtain ⟨tag, low, high, rfl⟩ := three_bytes (same.trans length)
    simp only [serialize, decodeBytes]
    have dot : (Serializer.word base.encode.2).Takes [low, high] none (Word.ofNat (numeral [low, high])) := .word _ rfl
    exact .bind (.byte _ tag) (.bind dot
      (.decoded "ppu continuation" idle (by cases decode? tag (Word.ofNat (numeral [low, high])) <;> rfl)))
  have writes : ∀ continuation : Continuation, continuation.serialize.Writes continuation continuation.encodeBytes := by
    intro continuation
    simp only [serialize]
    change Writes _ _ ([_] ++ (littleEndian 2 continuation.encode.2.toNat ++ []))
    refine .bind (byte_writes _) (.bind (word_writes continuation.encode.2) ?_)
    rw [continuation.decode?_encode]
    exact .pure continuation
  obtain ⟨tag, low, high, rfl⟩ := three_bytes length
  rw [refusal?_part]
  exact .coded takes writes decodeBytes_encodeBytes (fun _ => rfl) (fun _ => encodeBytes_of_decodeBytes) accepted_of_none

end Continuation

theorem refusal?_registers (after : List UInt8) {line : List UInt8} (width : line.length = 2) : Part.ppu.refusal? (line ++ after) =
    if decide ((Word.ofNat (numeral line) : UInt16) ≤ linesPerFrame) then none else some "ppu line" := by
  have number : (Word.ofNat (numeral line) : UInt16).toNat = numeral line := Word.toNat_numeral (α := UInt16) width
  have first : ((line ++ after).drop 0).take 2 = line := take_middle [] line after 0 2 rfl width
  rw [Part.ppu, Part.refusal?_cons, Part.refusal?_nil, Option.or_none, Rule.refusal?, Rule.content,
    first]
  simp only [UInt16.le_iff_toNat_le, number]

theorem pixel_settles (base : Rgb15) (length : bytes.length = 2) : ∃ color : Rgb15,
    Settles (Serializable.serialize color) (Serializable.serialize base) bytes bytes none True color color :=
  ⟨⟨Word.ofNat (numeral bytes)⟩, .of_eq (.bind (.word base.bits length fun _ => rfl) (.pure _ _)) (by simp) (by simp) rfl⟩

theorem registers_settle (base : Ppu) (length : bytes.length = 114698) : ∃ value : Ppu, ∀ continuation,
    Settles (Chip.serialize { value with continuation }) (Chip.serialize base) bytes bytes (Part.ppu.refusal? bytes)
      (Part.ppu.refusal? bytes = none) { value with continuation } { value with continuation := base.continuation } := by
  obtain ⟨line, rest, rfl, line_size, length⟩ := exists_append 2 114696 length
  obtain ⟨frame, pixels, rfl, frame_size, pixels_size⟩ := exists_append 8 114688 length
  obtain ⟨picture, drawn⟩ :=
    Settles.vector (fun base _ => pixel_settles base) base.picture.pixels (show pixels.length = 57344 * 2 from pixels_size)
  rw [refusal?_registers _ line_size]
  refine ⟨⟨if decide ((Word.ofNat (numeral line) : UInt16) ≤ linesPerFrame) then Word.ofNat (numeral line) else 0,
    Word.ofNat (numeral frame), ⟨picture⟩, base.continuation⟩, fun continuation => ?_⟩
  simp only [Chip.serialize, serialize]
  have shown : ∀ sane, Settles (Serializable.serialize (⟨picture⟩ : Framebuffer)) (Serializable.serialize base.picture) pixels
      pixels none sane ⟨picture⟩ ⟨picture⟩ :=
    fun sane => .of_eq (.bind (drawn sane) (.pure _ _)) (by simp) (by simp) rfl
  exact .of_eq (.bind (.word _ line_size fun fine => if_pos (accepted_of_none fine)) (.bind (.word _ frame_size fun _ => rfl)
    (.bind (shown _) (.bind (.require _ _ _ accepted_of_none) (.pure _ _))))) (by simp) (by simp) (by simp)

theorem follows (base : Ppu) : ∀ stack, Follows (Chip.visit stack) base (Part.ppu :: if stack then [Part.ppuWork] else []) :=
  Chip.follows (fun ppu continuation => { ppu with continuation }) base.continuation (fun _ => base.registers_settle)
    fun _ length => ⟨_, fun _ => .of_eq (.bind (base.continuation.settles length) (.pure _ _)) (by simp) (by simp) (by simp)⟩

end Ppu

namespace Multiplier
namespace Continuation

def decodeBytes : List UInt8 → Option Continuation
  | [tag, remaining] => decode? tag remaining
  | _ => none

def encodeBytes (continuation : Continuation) : List UInt8 := [continuation.encode.1, continuation.encode.2]

theorem decode?_large {tag : UInt8} (large : 3 < tag.toNat) (remaining : UInt8) : decode? tag remaining = none := by
  unfold decode?
  split <;> first | omega | rfl

theorem settles (base : Continuation) (length : bytes.length = 2) :
    Settles ((decodeBytes bytes).getD idle).serialize base.serialize bytes (Part.multiplierWork.tidy bytes)
      (Part.multiplierWork.refusal? bytes) (Part.multiplierWork.refusal? bytes = none) ((decodeBytes bytes).getD idle)
      ((decodeBytes bytes).getD idle) := by
  have takes : ∀ others : List UInt8, others.length = bytes.length → base.serialize.Takes others
      (if (decodeBytes others).isSome then none else some "multiplier continuation") ((decodeBytes others).getD idle) := by
    intro others same
    obtain ⟨tag, remaining, rfl⟩ := two_bytes (same.trans length)
    simp only [serialize, decodeBytes]
    exact .bind (.byte _ tag) (.bind (.byte _ remaining)
      (.decoded "multiplier continuation" idle (by cases decode? tag remaining <;> rfl)))
  have writes : ∀ continuation : Continuation, continuation.serialize.Writes continuation continuation.encodeBytes := by
    intro continuation
    simp only [serialize]
    change Writes _ _ ([_] ++ ([_] ++ []))
    refine .bind (byte_writes _) (.bind (byte_writes _) ?_)
    rw [continuation.decode?_encode]
    exact .pure continuation
  obtain ⟨tag, remaining, rfl⟩ := two_bytes length
  have refusal : Part.multiplierWork.refusal? [tag, remaining] =
      if (decodeBytes [tag, remaining]).isSome then none else some "multiplier continuation" := by
    rcases tag_cases tag with rfl | rfl | rfl | rfl | large
    · rfl
    · rfl
    · rfl
    · rfl
    · have refused : ¬ numeral [tag] < 4 := by
        simp only [numeral]
        omega
      rw [decodeBytes, decode?_large large, Part.multiplierWork, Part.refusal?_cons, Part.refusal?_nil, Option.or_none, Rule.refusal?]
      exact if_neg (by simpa [Rule.content] using refused)
  have tidy : ∀ continuation, decodeBytes [tag, remaining] = some continuation →
      continuation.encodeBytes = Part.multiplierWork.tidy [tag, remaining] := by
    intro continuation found
    rcases tag_cases tag with rfl | rfl | rfl | rfl | large
    · cases found
      rfl
    · cases found
      rfl
    · cases found
      rfl
    · cases found
      rfl
    · rw [decodeBytes, decode?_large large] at found
      cases found
  rw [refusal]
  exact .coded takes writes decode?_encode (fun _ => rfl) tidy accepted_of_none

end Continuation

theorem registers_settle (base : Multiplier) (length : bytes.length = 8) : ∃ value : Multiplier, ∀ continuation,
    Settles (Chip.serialize { value with continuation }) (Chip.serialize base) bytes bytes none True { value with continuation }
      { value with continuation := base.continuation } := by
  obtain ⟨operands, operations, rfl, operands_size, operations_size⟩ := exists_append 4 4 length
  refine ⟨{ base with operands := ⟨operands.toArray, operands_size⟩, operations := Word.ofNat (numeral operations) },
    fun continuation => ?_⟩
  simp only [Chip.serialize, serialize]
  exact .of_eq (.bind (.bytes _ operands_size) (.bind (.word _ operations_size fun _ => rfl) (.pure _ _))) (by simp) (by simp)
    (by simp)

theorem follows (base : Multiplier) : ∀ stack, Follows (Chip.visit stack) base
    (Part.plain 8 :: if stack then [Part.multiplierWork] else []) :=
  Chip.follows (fun unit continuation => { unit with continuation }) base.continuation
    (fun _ length => (base.registers_settle length).imp fun _ settles continuation => (settles continuation).mono fun _ => trivial)
    fun _ length => ⟨_, fun _ => .of_eq (.bind (base.continuation.settles length) (.pure _ _)) (by simp) (by simp) (by simp)⟩

end Multiplier

namespace Rtc

theorem refusal?_registers (after : List UInt8) {ticks : List UInt8} (width : ticks.length = 2) :
    Part.rtc.refusal? (ticks ++ after) =
      if decide ((Word.ofNat (numeral ticks) : UInt16).toUInt32 < frequency) then none else some "rtc ticks" := by
  have number : (Word.ofNat (numeral ticks) : UInt16).toNat = numeral ticks := Word.toNat_numeral (α := UInt16) width
  have first : ((ticks ++ after).drop 0).take 2 = ticks := take_middle [] ticks after 0 2 rfl width
  rw [Part.rtc, Part.refusal?_cons, Part.refusal?_nil, Option.or_none, Rule.refusal?, Rule.content,
    first]
  simp only [UInt32.lt_iff_toNat_lt, UInt16.toNat_toUInt32, number]

theorem registers_settle (base : Rtc) (length : bytes.length = 6) : ∃ value : Rtc, ∀ ticked,
    Settles (Chip.serialize { value with ticked }) (Chip.serialize base) bytes bytes (Part.rtc.refusal? bytes)
      (Part.rtc.refusal? bytes = none) { value with ticked } { value with ticked := base.ticked } := by
  obtain ⟨ticks, seconds, rfl, ticks_size, seconds_size⟩ := exists_append 2 4 length
  rw [refusal?_registers _ ticks_size]
  refine ⟨{ base with
    ticks := if decide ((Word.ofNat (numeral ticks) : UInt16).toUInt32 < frequency) then Word.ofNat (numeral ticks) else 0,
    seconds := Word.ofNat (numeral seconds) }, fun ticked => ?_⟩
  simp only [Chip.serialize, serialize]
  exact .of_eq (.bind (.word _ ticks_size fun fine => if_pos (accepted_of_none fine)) (.bind (.word _ seconds_size fun _ => rfl)
    (.bind (.require _ _ _ accepted_of_none) (.pure _ _)))) (by simp) (by simp) (by simp)

theorem follows (base : Rtc) : ∀ stack, Follows (Chip.visit stack) base (Part.rtc :: if stack then [Part.rtcWork] else []) :=
  Chip.follows (fun clock ticked => { clock with ticked }) base.ticked (fun _ => base.registers_settle) fun bytes length => by
    obtain ⟨ticked, rfl⟩ := List.length_eq_one_iff.mp (show bytes.length = 1 from length)
    exact ⟨ticked != 0, fun _ => .of_eq (.bind (.boolean base.ticked ticked) (.pure _ _)) (by simp) (by simp [Part.rtcWork]) rfl⟩

end Rtc

namespace Coprocessor

/-- The parts of a coprocessor are those of its kind. -/
theorem follows {chip : Coprocessor} {kind : CoprocessorKind} {index : UInt8} (fits : chip.Fits kind index) (stack : Bool) :
    Follows (Chip.visit stack) chip (Part.coprocessor kind :: if stack then [Part.coprocessorWork kind] else []) := by
  intro bytes length
  cases chip with
  | multiplier unit =>
    obtain ⟨rfl, _⟩ := fits
    obtain ⟨value, settles⟩ := unit.follows stack bytes length
    refine ⟨multiplier value, ?_⟩
    rw [visit_multiplier, visit_multiplier]
    exact settles.map multiplier
  | rtc clock =>
    obtain ⟨rfl, _⟩ := fits
    obtain ⟨value, settles⟩ := clock.follows stack bytes length
    refine ⟨rtc value, ?_⟩
    rw [visit_rtc, visit_rtc]
    exact settles.map rtc

end Coprocessor

end MultiClock
