import MultiClock.Proofs.MachineVisits

/-! The format of a snapshot's body, told without its visitors. A body is a row of parts; a part has a size,
rules about some of its bytes, in the order in which they are checked, and one way to write what it says. -/

namespace MultiClock

/-- The number that some bytes make, least significant first. -/
def numeral : List UInt8 → Nat
  | [] => 0
  | byte :: rest => byte.toNat + 256 * numeral rest

theorem numeral_lt (bytes : List UInt8) : numeral bytes < 256 ^ bytes.length := by
  induction bytes with
  | nil => exact Nat.one_pos
  | cons byte rest ih =>
    have small := byte.toNat_lt
    rw [List.length_cons, Nat.pow_succ, numeral]
    omega

theorem littleEndian_numeral (bytes : List UInt8) : littleEndian bytes.length (numeral bytes) = bytes := by
  induction bytes with
  | nil => rfl
  | cons byte rest ih =>
    have small := byte.toNat_lt
    have quotient : (byte.toNat + 256 * numeral rest) / 256 = numeral rest := by omega
    have low : UInt8.ofNat (byte.toNat + 256 * numeral rest) = byte := by
      rw [← UInt8.toNat_inj, UInt8.toNat_ofNat']
      omega
    rw [List.length_cons, numeral, littleEndian, quotient, ih, low]

theorem numeral_littleEndian {size value : Nat} (small : value < 256 ^ size) : numeral (littleEndian size value) = value := by
  induction size generalizing value with
  | zero =>
    rw [Nat.pow_zero] at small
    rw [littleEndian, numeral]
    omega
  | succ size ih =>
    rw [Nat.pow_succ] at small
    rw [littleEndian, numeral, ih (Nat.div_lt_of_lt_mul (Nat.mul_comm _ _ ▸ small)), UInt8.toNat_ofNat']
    omega

theorem exists_append (first rest : Nat) {bytes : List α} (length : bytes.length = first + rest) :
    ∃ left right, bytes = left ++ right ∧ left.length = first ∧ right.length = rest := by
  refine ⟨bytes.take first, bytes.drop first, (List.take_append_drop first bytes).symm, ?_, ?_⟩
  · rw [List.length_take]
    omega
  · rw [List.length_drop]
    omega

theorem take_middle (before middle after : List α) (offset width : Nat) (start : before.length = offset)
    (size : middle.length = width) : ((before ++ (middle ++ after)).drop offset).take width = middle := by
  rw [← start, List.drop_left, ← size, List.take_left]

theorem modify_middle (before after : List α) (item : α) (position : Nat) (f : α → α) (length : before.length = position) :
    (before ++ item :: after).modify position f = before ++ f item :: after := by
  rw [List.modify_eq_take_drop, ← length, List.take_left, List.drop_left, List.modifyHead_cons]

namespace Snapshot

/-- A field of a part, by the name that an error gives it, and which contents of it are accepted. -/
structure Rule where
  field : String
  offset : Nat
  width : Nat
  accepts : List UInt8 → Bool

namespace Rule

def content (rule : Rule) (bytes : List UInt8) : List UInt8 := (bytes.drop rule.offset).take rule.width

/-- The field is named if its content is not accepted. -/
def refusal? (rule : Rule) (bytes : List UInt8) : Option String :=
  if rule.accepts (rule.content bytes) then none else some rule.field

end Rule

structure Part where
  size : Nat
  /-- In the order in which they are checked. -/
  rules : List Rule
  /-- What a writer puts in the place of bytes that say the same. -/
  tidy : List UInt8 → List UInt8

namespace Part

def refusal? (part : Part) (bytes : List UInt8) : Option String := part.rules.findSome? (·.refusal? bytes)

theorem refusal?_cons {rule : Rule} {rules : List Rule} (size : Nat) (tidy : List UInt8 → List UInt8) (bytes : List UInt8) :
    (Part.mk size (rule :: rules) tidy).refusal? bytes = (rule.refusal? bytes).or ((Part.mk size rules tidy).refusal? bytes) := by
  rw [refusal?, List.findSome?_cons]
  cases rule.refusal? bytes <;> rfl

theorem refusal?_nil (size : Nat) (tidy : List UInt8 → List UInt8) (bytes : List UInt8) :
    (Part.mk size [] tidy).refusal? bytes = none := rfl

/-- Any bytes are accepted and written as they are. -/
def plain (size : Nat) : Part := ⟨size, [], id⟩

/-- Any byte but zero is true, and true is written as one. -/
def flag (byte : UInt8) : UInt8 := if byte = 0 then 0 else 1

def latch : Part := ⟨9, [], (·.modify 8 flag)⟩

/-- The frequency of a thread and its signed distance from the reference, which itself stands at zero. -/
def clock (frequency : UInt32) (reference : Bool) : Part where
  size := 12
  rules := [⟨"thread frequency", 0, 4, fun bytes => numeral bytes = frequency.toNat⟩,
    ⟨"thread clock", 4, 8, fun bytes =>
      numeral bytes ≤ Clock.maxDistance ∨ 2 ^ 64 ≤ numeral bytes + Clock.maxDistance⟩,
    ⟨"cpu clock", 4, 8, fun bytes => !reference || numeral bytes = 0⟩]
  tidy := id

def cpu : Part where
  size := 20
  rules := [⟨"cpu catch-up units", 8, 4, fun bytes => numeral bytes ≤ 2 * Cpu.catchupThreshold.toNat⟩]
  tidy := id

/-- The count of the samples is checked before the units of the next one, which come earlier. The program counter
only keeps the bits of an address. -/
def smp : Part where
  size := 8205
  rules := [⟨"smp sample count", 8203, 2, fun bytes => numeral bytes ≤ Smp.sampleCapacity⟩,
    ⟨"smp sample units", 4103, 4, fun bytes => numeral bytes < Smp.sampleUnits.toNat⟩]
  tidy := (·.modify 4098 (· &&& 0x0F))

def ppu : Part where
  size := 114698
  rules := [⟨"ppu line", 0, 2, fun bytes => numeral bytes ≤ Ppu.linesPerFrame.toNat⟩]
  tidy := id

def rtc : Part where
  size := 6
  rules := [⟨"rtc ticks", 0, 2, fun bytes => numeral bytes < Rtc.frequency.toNat⟩]
  tidy := id

/-- What a processor is at: nothing, an instruction, an access of it, or, for the reference, catching up. -/
def knowsWork (opcodes : UInt8) (reference : Bool) : List UInt8 → Bool
  | [tag, code, _, _] => tag = 0 || (tag = 1 || tag = 2) && code < opcodes || reference && tag = 3
  | _ => false

/-- Bytes that do not count are written as zeros. -/
def tidyWork : List UInt8 → List UInt8
  | [tag, code, operand, extra] =>
    if tag = 1 then [1, code, operand, extra]
    else if tag = 2 then [2, code, operand, flag extra]
    else if tag = 3 then [3, 0, 0, extra]
    else [0, 0, 0, 0]
  | bytes => bytes

def work (field : String) (opcodes : UInt8) (reference : Bool) : Part :=
  ⟨4, [⟨field, 0, 4, knowsWork opcodes reference⟩], tidyWork⟩

def ppuWork : Part where
  size := 3
  rules := [⟨"ppu continuation", 0, 3, fun bytes => match bytes with
    | tag :: dot => tag = 0 || tag = 1 && numeral dot < Ppu.dotsPerLine || tag = 2 || tag = 3
    | [] => false⟩]
  tidy bytes := match bytes with
    | tag :: dot => tag :: if tag = 1 then dot else [0, 0]
    | [] => []

def multiplierWork : Part where
  size := 2
  rules := [⟨"multiplier continuation", 0, 1, fun bytes => numeral bytes < 4⟩]
  tidy bytes := match bytes with
    | tag :: remaining => tag :: if tag = 2 then remaining else [0]
    | [] => []

def rtcWork : Part := ⟨1, [], (·.modify 0 flag)⟩

/-- Where one thread is suspended. -/
def suspension (offset : Nat) : Rule := ⟨"thread state", offset, 1, fun bytes => numeral bytes < 3⟩

def state : Part := ⟨1, [suspension 0], id⟩

/-- The active thread, whether chips are out of step, and where each thread is suspended. The active thread comes
first and is checked last. -/
def stack (threads : Nat) : Part where
  size := 2 + threads
  rules := (List.range threads).map (fun i => suspension (2 + i)) ++
    [⟨"active thread", 0, 1, fun bytes => numeral bytes < threads⟩]
  tidy := (·.modify 1 flag)

def coprocessor : CoprocessorKind → Part
  | .multiplier => plain 8
  | .rtc => rtc

def coprocessorWork : CoprocessorKind → Part
  | .multiplier => multiplierWork
  | .rtc => rtcWork

def registers (kinds : List CoprocessorKind) : ThreadId → Part
  | .cpu => cpu
  | .smp => smp
  | .ppu => ppu
  | .coprocessor index => (kinds[index.toNat]?.map coprocessor).getD (plain 0)

def inFlight (kinds : List CoprocessorKind) : ThreadId → Part
  | .cpu => work "cpu continuation" 8 true
  | .smp => work "smp continuation" 4 false
  | .ppu => ppuWork
  | .coprocessor index => (kinds[index.toNat]?.map coprocessorWork).getD (plain 0)

end Part

def frequencyOf (kinds : List CoprocessorKind) : ThreadId → UInt32
  | .cpu | .ppu => Clock.cpuFrequency
  | .smp => Clock.smpFrequency
  | .coprocessor index => match kinds[index.toNat]? with
    | some .multiplier => Multiplier.frequency
    | some .rtc => Rtc.frequency
    | none => 0

/-- Parts, one after the other. -/
abbrev Layout := List Part

namespace Layout

def size (layout : Layout) : Nat := (layout.map Part.size).sum

/-- The first field that is refused, in the order of the checks. -/
def refusal? : Layout → List UInt8 → Option String
  | [], _ => none
  | part :: rest, bytes => (part.refusal? (bytes.take part.size)).or (refusal? rest (bytes.drop part.size))

def tidy : Layout → List UInt8 → List UInt8
  | [], _ => []
  | part :: rest, bytes => part.tidy (bytes.take part.size) ++ tidy rest (bytes.drop part.size)

/-- A chip's registers, and what it has in flight if `stack` is set. -/
def chip (kinds : List CoprocessorKind) (stack : Bool) (id : ThreadId) : Layout :=
  Part.registers kinds id :: if stack then [Part.inFlight kinds id] else []

def thread (kinds : List CoprocessorKind) (stack : Bool) (id : ThreadId) : Layout :=
  Part.clock (frequencyOf kinds id) (id == .cpu) :: chip kinds stack id

/-- The frame counter, the memory, the latches, the threads, and in an instant snapshot how they are suspended. -/
def body (kinds : List CoprocessorKind) (portable : Bool) : Layout :=
  Part.plain 8 :: Part.plain 0x2000 :: Part.latch :: List.replicate kinds.length Part.latch ++
    ((threadsOf kinds.length).flatMap (thread kinds !portable) ++ if portable then [] else [Part.stack (3 + kinds.length)])

variable {first rest : Layout} {bytes others : List UInt8}

theorem size_append : size (first ++ rest) = first.size + rest.size := by
  rw [size, List.map_append, List.sum_append]
  rfl

theorem size_cons {part : Part} : size (part :: rest) = part.size + rest.size := rfl

theorem refusal?_append (length : bytes.length = first.size) :
    refusal? (first ++ rest) (bytes ++ others) = (first.refusal? bytes).or (rest.refusal? others) := by
  induction first generalizing bytes with
  | nil =>
    rw [List.length_eq_zero_iff.mp length]
    rfl
  | cons part first ih =>
    rw [size_cons] at length
    have inside : (bytes.drop part.size).length = size first := by
      rw [List.length_drop]
      omega
    rw [List.cons_append, refusal?, refusal?, List.take_append_of_le_length (by omega),
      List.drop_append_of_le_length (by omega), ih inside, Option.or_assoc]

theorem tidy_append (length : bytes.length = first.size) : tidy (first ++ rest) (bytes ++ others) =
    first.tidy bytes ++ rest.tidy others := by
  induction first generalizing bytes with
  | nil =>
    rw [List.length_eq_zero_iff.mp length]
    rfl
  | cons part first ih =>
    rw [size_cons] at length
    have inside : (bytes.drop part.size).length = size first := by
      rw [List.length_drop]
      omega
    rw [List.cons_append, tidy, tidy, List.take_append_of_le_length (by omega), List.drop_append_of_le_length (by omega),
      ih inside, List.append_assoc]

theorem refusal?_cons {part : Part} (length : bytes.length = part.size) :
    refusal? (part :: rest) (bytes ++ others) = (part.refusal? bytes).or (rest.refusal? others) := by
  rw [refusal?, ← length, List.take_left, List.drop_left]

theorem tidy_cons {part : Part} (length : bytes.length = part.size) :
    tidy (part :: rest) (bytes ++ others) = part.tidy bytes ++ rest.tidy others := by
  rw [tidy, ← length, List.take_left, List.drop_left]

/-- Parts that take any bytes. -/
theorem refusal?_plain (count size : Nat) (bytes : List UInt8) : refusal? (List.replicate count (Part.plain size)) bytes = none := by
  induction count generalizing bytes with
  | zero => rfl
  | succ count ih =>
    rw [List.replicate_succ, refusal?, ih]
    rfl

theorem size_replicate (count : Nat) (part : Part) : size (List.replicate count part) = count * part.size := by
  rw [size, List.map_replicate, List.sum_replicate_nat]

theorem refusal?_single {part : Part} (length : bytes.length = part.size) : refusal? [part] bytes = part.refusal? bytes := by
  rw [refusal?, refusal?, ← length, List.take_length, Option.or_none]

theorem tidy_single {part : Part} (length : bytes.length = part.size) : tidy [part] bytes = part.tidy bytes := by
  rw [tidy, tidy, ← length, List.take_length, List.append_nil]

/-- Parts that are written as they are. -/
theorem tidy_replicate {part : Part} {count : Nat} (plain : part.tidy = id) (length : bytes.length = count * part.size) :
    tidy (List.replicate count part) bytes = bytes := by
  induction count generalizing bytes with
  | zero =>
    rw [Nat.zero_mul] at length
    rw [List.length_eq_zero_iff.mp length]
    rfl
  | succ count ih =>
    rw [Nat.succ_mul] at length
    have inside : (bytes.drop part.size).length = count * part.size := by
      rw [List.length_drop]
      omega
    rw [List.replicate_succ, tidy, plain, id, ih inside, List.take_append_drop]

theorem refusal?_states (before states : List UInt8) :
    (List.range states.length).findSome? (fun i => (Part.suspension (before.length + i)).refusal? (before ++ states)) =
      refusal? (List.replicate states.length Part.state) states := by
  -- The rules know the position in the bytes and the layout does not, so the bytes in front are generalized.
  induction states generalizing before with
  | nil => rfl
  | cons state rest ih =>
    have here : (Part.suspension (before.length + 0)).refusal? (before ++ state :: rest) = Part.state.refusal? [state] := by
      have content := take_middle before [state] rest before.length 1 rfl rfl
      rw [Part.state, Part.refusal?_cons, Part.refusal?_nil, Option.or_none, Rule.refusal?, Rule.refusal?, Rule.content,
        Rule.content]
      exact congrArg (fun bytes => if decide (numeral bytes < 3) then none else some "thread state") content
    have shift : (fun i => (Part.suspension (before.length + i)).refusal? (before ++ state :: rest)) ∘ Nat.succ =
        fun i => (Part.suspension ((before ++ [state]).length + i)).refusal? ((before ++ [state]) ++ rest) := by
      funext i
      rw [List.append_assoc, List.length_append, List.length_singleton, Nat.add_assoc, Nat.add_comm 1 i]
      rfl
    rw [List.length_cons, List.range_succ_eq_map, List.findSome?_cons, List.findSome?_map, here, shift, ih, List.replicate_succ]
    change _ = refusal? (Part.state :: _) ([state] ++ rest)
    rw [refusal?_cons rfl]
    cases Part.state.refusal? [state] <;> rfl

/-- The states are checked in their order, and then the active thread. -/
theorem refusal?_stack (active flag : UInt8) (states : List UInt8) :
    (Part.stack states.length).refusal? (active :: flag :: states) =
      (refusal? (List.replicate states.length Part.state) states).or
        (if active.toNat < states.length then none else some "active thread") := by
  have last : numeral [active] = active.toNat := by rw [numeral, numeral, Nat.mul_zero, Nat.add_zero]
  rw [← refusal?_states [active, flag], Part.refusal?, Part.stack, List.findSome?_append, List.findSome?_map,
    List.findSome?_singleton, Rule.refusal?, Rule.content]
  simp only [List.drop_zero, List.take_succ_cons, List.take_zero, last, decide_eq_true_eq]
  rfl

@[simp] theorem size_nil : size [] = 0 := rfl

theorem size_chip (kinds : List CoprocessorKind) (stack : Bool) (id : ThreadId) :
    (chip kinds stack id).size = Board.visitSize kinds stack id := by
  have split : (chip kinds stack id).size =
      (Part.registers kinds id).size + if stack then (Part.inFlight kinds id).size else 0 := by
    rw [chip, size_cons]
    cases stack <;> rfl
  rw [split]
  cases id with
  | cpu | smp | ppu => rfl
  | coprocessor index =>
    simp only [Part.registers, Part.inFlight, Board.visitSize]
    cases kinds[index.toNat]? with
    | none => cases stack <;> rfl
    | some kind => cases kind <;> rfl

theorem size_thread (kinds : List CoprocessorKind) (stack : Bool) (id : ThreadId) :
    (thread kinds stack id).size = 12 + Board.visitSize kinds stack id := by
  rw [thread, size_cons, size_chip]
  rfl

/-- A layout has the size that the visitors of a machine count. -/
theorem size_body (kinds : List CoprocessorKind) (portable : Bool) : (body kinds portable).size = Machine.visitSize kinds portable := by
  have threads : ∀ ids : List ThreadId, size (ids.flatMap (thread kinds !portable)) =
      (ids.map fun id => 12 + Board.visitSize kinds (!portable) id).sum := by
    intro ids
    induction ids with
    | nil => rfl
    | cons id ids ih => rw [List.flatMap_cons, size_append, ih, size_thread, List.map_cons, List.sum_cons]
  have last : size (if portable then [] else [Part.stack (3 + kinds.length)]) = if portable then 0 else 2 + (3 + kinds.length) := by
    cases portable <;> rfl
  rw [body, List.cons_append, List.cons_append, List.cons_append]
  simp only [size_cons, size_append, threads, size_replicate, last, Machine.visitSize, Bus.visitSize, Part.plain,
    show Part.latch.size = 9 from rfl]
  omega

end Layout
end Snapshot
end MultiClock
