import MultiClock.Proofs.SnapshotLayout

/-! Readers and what they make of any bytes. A reader takes the bytes of its layout whatever they are, names the
first field that it refuses, and ends up with a value. If it refuses none, a writer of the value tidies the bytes,
and the reader takes tidy bytes for the same value. -/

namespace MultiClock

open Serializer Snapshot

/-- Words of this type are all the numbers of so many bytes. -/
class Word.Total (α : Type) [Word α] : Prop where
  toNat_ofNat : ∀ bits, bits < 256 ^ Word.size α → Word.toNat (Word.ofNat bits : α) = bits

namespace Word

instance : Total UInt8 where
  toNat_ofNat _ small := Nat.mod_eq_of_lt small

instance : Total UInt16 where
  toNat_ofNat _ small := Nat.mod_eq_of_lt small

instance : Total UInt32 where
  toNat_ofNat _ small := Nat.mod_eq_of_lt small

instance : Total UInt64 where
  toNat_ofNat _ small := Nat.mod_eq_of_lt small

instance : Total Int16 where
  toNat_ofNat _ small := Nat.mod_eq_of_lt small

instance : Total Int32 where
  toNat_ofNat _ small := Nat.mod_eq_of_lt small

instance : Total Int64 where
  toNat_ofNat _ small := Nat.mod_eq_of_lt small

end Word

theorem Word.toNat_numeral [Word α] [Word.Total α] {bytes : List UInt8} (size : bytes.length = Word.size α) :
    Word.toNat (Word.ofNat (numeral bytes) : α) = numeral bytes :=
  Word.Total.toNat_ofNat _ (size ▸ numeral_lt bytes)

theorem accepted_of_none {holds : Bool} {field : String} (fine : (if holds then none else some field) = none) : holds = true := by
  cases holds with
  | true => rfl
  | false => cases fine

theorem both_accepted_of_none {first second : Bool} {field other : String}
    (fine : (if first then none else some field).or (if second then none else some other) = none) :
    first = true ∧ second = true :=
  (Option.or_eq_none_iff.mp fine).imp accepted_of_none accepted_of_none

theorem three_accepted_of_none {first second third : Bool} {field other last : String}
    (fine : (if first then none else some field).or ((if second then none else some other).or
      (if third then none else some last)) = none) : first = true ∧ second = true ∧ third = true :=
  (Option.or_eq_none_iff.mp fine).imp accepted_of_none both_accepted_of_none

namespace Visit

/-- Takes these bytes, whatever they say, and names the field that is refused. -/
def Takes (visit : Visit α) (bytes : List UInt8) (refused : Option String) (value : α) : Prop :=
  ∀ s : Serializer, s.mode = .load → s.Holds bytes →
    visit s = (value, { s.took bytes.length with invalid := s.invalid.or refused })

theorem Takes.reads {visit : Visit α} {bytes : List UInt8} {value : α} (takes : visit.Takes bytes none value) :
    visit.Reads value bytes := by
  intro s loading holds
  rw [takes s loading holds, Option.or_none]
  rfl

theorem Reads.takes {visit : Visit α} {bytes : List UInt8} {value : α} (reads : visit.Reads value bytes) :
    visit.Takes bytes none value := by
  intro s loading holds
  rw [reads s loading holds, Option.or_none]
  rfl

namespace Takes

variable {given others : List UInt8} {refused later : Option String}

theorem pure (value : α) : Takes (pure value) [] none value :=
  Reads.takes fun _ _ _ => rfl

theorem bind {visit : Visit α} {next : α → Visit β} {value : α} {result : β} (first : visit.Takes given refused value)
    (last : (next value).Takes others later result) : Takes (visit >>= next) (given ++ others) (refused.or later) result := by
  intro s loading holds
  have rest : ({ s.took given.length with invalid := s.invalid.or refused } : Serializer).Holds others := holds.right
  rw [bind_apply, first s loading holds.left]
  refine (last { s.took given.length with invalid := s.invalid.or refused } loading rest).trans ?_
  simp only [List.length_append, took, Nat.add_assoc, Option.or_assoc]

theorem map {visit : Visit α} {value : α} (f : α → β) (takes : visit.Takes given refused value) :
    Takes (f <$> visit) given refused (f value) := by
  intro s loading holds
  rw [map_apply, takes s loading holds]

theorem reject (field : String) : (Serializer.reject field).Takes [] (some field) () := by
  rintro ⟨mode, buffer, cursor, overrun, invalid⟩ rfl _
  cases invalid <;> rfl

theorem word [Word α] (base : α) (size : given.length = Word.size α) :
    (Serializer.word base).Takes given none (Word.ofNat (numeral given)) := by
  have reads := word_reads base (size ▸ numeral_lt given)
  rw [← size, littleEndian_numeral] at reads
  exact reads.takes

theorem byte (base byte : UInt8) : (Serializer.word base).Takes [byte] none byte := by
  have takes : (Serializer.word base).Takes [byte] none (Word.ofNat (numeral [byte])) := word base rfl
  rwa [show (Word.ofNat (numeral [byte]) : UInt8) = byte from UInt8.ofNat_toNat] at takes

theorem bytes (base : Vector UInt8 n) (size : given.length = n) :
    (Serializer.bytes base).Takes given none ⟨given.toArray, size⟩ :=
  Reads.takes (bytes_reads ⟨given.toArray, size⟩ base)

/-- Any byte but zero is true. -/
theorem boolean (base : Bool) (byte : UInt8) : (Serializer.boolean base).Takes [byte] none (byte != 0) := by
  refine Reads.takes fun s mode holds => ?_
  rw [Serializer.boolean, bind_apply, (Takes.byte _ byte).reads s mode holds]
  exact Prod.ext (if_pos mode) rfl

/-- A value is decoded, or a default takes its place. -/
theorem decoded {visit : Visit α} {found : Option α} (field : String) (default : α)
    (same : visit = found.elim (do Serializer.reject field; Pure.pure default) Pure.pure) :
    visit.Takes [] (if found.isSome then none else some field) (found.getD default) := by
  subst same
  cases found with
  | some value => exact pure value
  | none => exact (reject field).bind (pure default)

end Takes

/-- What holds of every value that a visitor yields holds of one that was taken. -/
theorem Takes.post {visit : Visit α} {bytes : List UInt8} {refused : Option String} {value : α} {size : Nat} {post : α → Prop}
    (takes : visit.Takes bytes refused value) (yields : Yields .load size visit post) : post value := by
  have holds : (Serializer.load bytes.toArray).Holds bytes := ⟨[], [], by simp [Serializer.load], rfl⟩
  have held := (yields (Serializer.load bytes.toArray) rfl).1
  rwa [takes _ rfl holds] at held

/-- A reader takes any of these bytes. As long as they are sane, a writer tidies them, and the reader takes the tidy
ones alike. -/
structure Settles (writer reader : Visit α) (bytes tidied : List UInt8) (refused : Option String) (sane : Prop)
    (written loaded : α) : Prop where
  takes : reader.Takes bytes refused loaded
  writes : sane → writer.Writes written tidied
  again : sane → reader.Reads loaded tidied

/-- A visitor that takes any bytes of a layout and refuses what the layout refuses. What it does not refuse it tidies. -/
def Follows (visit : α → Visit α) (base : α) (layout : Layout) : Prop :=
  ∀ bytes : List UInt8, bytes.length = layout.size → ∃ value, Settles (visit value) (visit base) bytes (layout.tidy bytes)
    (layout.refusal? bytes) (layout.refusal? bytes = none) value value

namespace Settles

variable {given others tidied rest : List UInt8} {refused later : Option String} {sane : Prop}

theorem pure (written loaded : α) : Settles (pure written) (pure loaded) [] [] none sane written loaded :=
  ⟨.pure loaded, fun _ => .pure written, fun _ => .pure loaded⟩

theorem bind {writer reader : Visit α} {next follow : α → Visit β} {written loaded : α} {result final : β}
    (first : Settles writer reader given tidied refused sane written loaded)
    (last : Settles (next written) (follow loaded) others rest later sane result final) :
    Settles (writer >>= next) (reader >>= follow) (given ++ others) (tidied ++ rest) (refused.or later) sane result final :=
  ⟨first.takes.bind last.takes, fun fine => (first.writes fine).bind (last.writes fine),
    fun fine => (first.again fine).bind (last.again fine)⟩

theorem of_eq {writer reader : Visit α} {written loaded : α} {found neat : List UInt8} {named : Option String}
    (settles : Settles writer reader given tidied refused sane written loaded) (same : given = found) (tidy : tidied = neat)
    (names : refused = named) : Settles writer reader found neat named sane written loaded :=
  same ▸ tidy ▸ names ▸ settles

/-- Nothing is written back that was refused. -/
theorem of_insane {writer reader : Visit α} {written loaded : α} (takes : reader.Takes given refused loaded) (insane : ¬ sane) :
    Settles writer reader given tidied refused sane written loaded :=
  ⟨takes, fun fine => absurd fine insane, fun fine => absurd fine insane⟩

/-- What is made of a value adds no bytes. -/
theorem onto {writer reader : Visit α} {written loaded : α} (f g : α → β)
    (settles : Settles writer reader given tidied refused sane written loaded) :
    Settles (writer >>= fun value => Pure.pure (f value)) (reader >>= fun value => Pure.pure (g value)) given tidied refused sane
      (f written) (g loaded) :=
  of_eq (bind settles (pure _ _)) (List.append_nil _) (List.append_nil _) Option.or_none

theorem as {writer reader : Visit α} {written loaded result final : α}
    (settles : Settles writer reader given tidied refused sane written loaded) (same : sane → written = result)
    (alike : loaded = final) : Settles writer reader given tidied refused sane result final :=
  ⟨alike ▸ settles.takes, fun fine => same fine ▸ settles.writes fine, fun fine => alike ▸ settles.again fine⟩

theorem mono {writer reader : Visit α} {written loaded : α} {saner : Prop}
    (settles : Settles writer reader given tidied refused sane written loaded) (implies : saner → sane) :
    Settles writer reader given tidied refused saner written loaded :=
  ⟨settles.takes, fun fine => settles.writes (implies fine), fun fine => settles.again (implies fine)⟩

theorem map {writer reader : Visit α} {written loaded : α} (f : α → β)
    (settles : Settles writer reader given tidied refused sane written loaded) :
    Settles (f <$> writer) (f <$> reader) given tidied refused sane (f written) (f loaded) :=
  ⟨settles.takes.map f, fun fine => (settles.writes fine).map f, fun fine => (settles.again fine).map f⟩

/-- What settles in another form settles. -/
theorem of_map {writer reader : Visit α} {written loaded : α} {f : α → β} (injective : ∀ a b, f a = f b → a = b)
    (settles : Settles (f <$> writer) (f <$> reader) given tidied refused sane (f written) (f loaded)) :
    Settles writer reader given tidied refused sane written loaded := by
  have lift : ∀ (visit : Visit α) (value : α) (s after : Serializer), (f <$> visit) s = (f value, after) →
      visit s = (value, after) := by
    intro visit value s after same
    obtain ⟨image, rest⟩ := Prod.ext_iff.mp same
    exact Prod.ext (injective _ _ image) rest
  exact ⟨fun s loading holds => lift _ _ _ _ (settles.takes s loading holds),
    fun fine s mode => lift _ _ _ _ (settles.writes fine s mode),
    fun fine s loading holds => lift _ _ _ _ (settles.again fine s loading holds)⟩

/-- A reader that refuses none of its bytes. -/
theorem of_reads {writer reader : Visit α} {value : α} (reads : reader.Reads value given)
    (writes : sane → writer.Writes value given) : Settles writer reader given given none sane value value :=
  ⟨reads.takes, writes, fun _ => reads⟩

/-- Any bytes are a word. -/
theorem word [Word α] [Word.Total α] {written : α} (base : α) (size : given.length = Word.size α)
    (same : sane → written = Word.ofNat (numeral given)) : Settles (Serializer.word written) (Serializer.word base) given given none
      sane (Word.ofNat (numeral given)) (Word.ofNat (numeral given)) := by
  have small : numeral given < 256 ^ Word.size α := size ▸ numeral_lt given
  have image : littleEndian (Word.size α) (numeral given) = given := size ▸ littleEndian_numeral given
  have reads := word_reads base small
  have writes := word_writes (Word.ofNat (numeral given) : α)
  rw [Word.Total.toNat_ofNat _ small, image] at writes
  rw [image] at reads
  exact of_reads reads fun fine => same fine ▸ writes

theorem byte (base byte : UInt8) : Settles (Serializer.word byte) (Serializer.word base) [byte] [byte] none sane byte byte :=
  of_reads (Takes.byte base byte).reads fun _ => byte_writes byte

/-- Any bytes are bytes. -/
theorem bytes (base : Vector UInt8 n) (size : given.length = n) :
    Settles (Serializer.bytes ⟨given.toArray, size⟩) (Serializer.bytes base) given given none sane ⟨given.toArray, size⟩
      ⟨given.toArray, size⟩ :=
  of_reads (Takes.bytes base size).reads fun _ => bytes_writes ⟨given.toArray, size⟩

theorem boolean (base : Bool) (byte : UInt8) : Settles (Serializer.boolean (byte != 0)) (Serializer.boolean base) [byte]
    [Part.flag byte] none sane (byte != 0) (byte != 0) := by
  have canonical : (byte != 0) = (Part.flag byte != 0) := by
    unfold Part.flag
    split <;> simp_all
  refine ⟨.boolean base byte, fun _ s mode => ?_, fun _ => canonical ▸ (Takes.boolean base (Part.flag byte)).reads⟩
  rw [Serializer.boolean, bind_apply, word_writes _ s mode]
  refine Prod.ext (if_neg mode) ?_
  by_cases zero : byte = 0
  · subst zero
    rfl
  · simp only [bne_iff_ne, ne_eq, zero, not_false_eq_true, if_true, Part.flag, if_false]
    rfl

/-- A condition is checked, and a default takes the place of what does not satisfy it. -/
theorem require (field : String) {holds : Bool} (value default : α) (accepted : sane → holds = true) :
    Settles (Serializer.require field holds value default) (Serializer.require field holds value default) [] []
      (if holds then none else some field) sane (if holds then value else default) (if holds then value else default) := by
  cases holds with
  | true => exact pure value value
  | false =>
    exact of_insane ((Takes.reject field).bind (.pure default)) fun fine => Bool.false_ne_true (accepted fine)

/-- Values that are written in a code. -/
theorem coded {visit : α → Visit α} {encode : α → List UInt8} {decode : List UInt8 → Option α} {field : String} {default base : α}
    (takes : ∀ bytes, bytes.length = given.length →
      (visit base).Takes bytes (if (decode bytes).isSome then none else some field) ((decode bytes).getD default))
    (writes : ∀ value, (visit value).Writes value (encode value)) (inverse : ∀ value, decode (encode value) = some value)
    (length : ∀ value, (encode value).length = given.length) (tidy : ∀ value, decode given = some value → encode value = tidied)
    (accepts : sane → (decode given).isSome) :
    Settles (visit ((decode given).getD default)) (visit base) given tidied (if (decode given).isSome then none else some field)
      sane ((decode given).getD default) ((decode given).getD default) := by
  have found : sane → ∃ value, decode given = some value := fun fine => Option.isSome_iff_exists.mp (accepts fine)
  refine ⟨takes given rfl, ?_, ?_⟩
  · intro fine
    obtain ⟨value, decoded⟩ := found fine
    rw [decoded, ← tidy value decoded]
    exact writes value
  · intro fine
    obtain ⟨value, decoded⟩ := found fine
    have neat := takes (encode value) (length value)
    rw [inverse] at neat
    rw [decoded, ← tidy value decoded]
    exact neat.reads

theorem list {visit : α → Visit α} {part : Part} {bases : List α}
    (item : ∀ base ∈ bases, ∀ bytes : List UInt8, bytes.length = part.size → ∃ value,
      Settles (visit value) (visit base) bytes (part.tidy bytes) (part.refusal? bytes) (part.refusal? bytes = none) value value)
    {bytes : List UInt8} (size : bytes.length = bases.length * part.size) :
    ∃ values, values.length = bases.length ∧ Settles (values.mapM visit) (bases.mapM visit) bytes
      (Layout.tidy (List.replicate bases.length part) bytes) (Layout.refusal? (List.replicate bases.length part) bytes)
      (Layout.refusal? (List.replicate bases.length part) bytes = none) values values := by
  induction bases generalizing bytes with
  | nil =>
    rw [List.length_nil, Nat.zero_mul] at size
    rw [List.length_eq_zero_iff.mp size]
    exact ⟨[], rfl, pure [] []⟩
  | cons base bases ih =>
    rw [List.length_cons, Nat.succ_mul, Nat.add_comm] at size
    obtain ⟨first, rest, rfl, here, there⟩ := exists_append _ _ size
    obtain ⟨value, head⟩ := item base List.mem_cons_self first here
    obtain ⟨values, length, tail⟩ := ih (fun other member => item other (List.mem_cons_of_mem base member)) there
    refine ⟨value :: values, congrArg Nat.succ length, ?_⟩
    rw [List.length_cons, List.replicate_succ, Layout.refusal?_cons here, Layout.tidy_cons here, List.mapM_cons, List.mapM_cons]
    have fine : (part.refusal? first).or (Layout.refusal? (List.replicate bases.length part) rest) = none →
        part.refusal? first = none ∧ Layout.refusal? (List.replicate bases.length part) rest = none := Option.or_eq_none_iff.mp
    refine of_eq (bind (head.mono fun all => (fine all).1) (bind (tail.mono fun all => (fine all).2) (pure _ _))) ?_ ?_ ?_
    · rw [List.append_nil]
    · rw [List.append_nil]
    · rw [Option.or_none]

theorem array {visit : α → Visit α} {part : Part} {bases : Array α}
    (item : ∀ base ∈ bases, ∀ bytes : List UInt8, bytes.length = part.size → ∃ value,
      Settles (visit value) (visit base) bytes (part.tidy bytes) (part.refusal? bytes) (part.refusal? bytes = none) value value)
    {bytes : List UInt8} (size : bytes.length = bases.size * part.size) :
    ∃ values, values.size = bases.size ∧ Settles (values.mapM visit) (bases.mapM visit) bytes
      (Layout.tidy (List.replicate bases.size part) bytes) (Layout.refusal? (List.replicate bases.size part) bytes)
      (Layout.refusal? (List.replicate bases.size part) bytes = none) values values := by
  have items := fun base member => item base (Array.mem_toList_iff.mp member)
  obtain ⟨values, length, settles⟩ := list items size
  refine ⟨values.toArray, length, of_map (f := Array.toList) (fun _ _ => Array.ext') ?_⟩
  rw [Array.toList_mapM, Array.toList_mapM]
  exact settles

/-- Items that take any bytes. -/
theorem vector [Serializable α] {width : Nat}
    (item : ∀ (base : α) (bytes : List UInt8), bytes.length = width → ∃ value : α,
      Settles (Serializable.serialize value) (Serializable.serialize base) bytes bytes none True value value)
    (bases : Vector α n) {bytes : List UInt8} (size : bytes.length = n * width) :
    ∃ values : Vector α n, ∀ sane, Settles (Serializer.array values) (Serializer.array bases) bytes bytes none sane values values := by
  have each : ∀ base ∈ bases.toArray, ∀ bytes : List UInt8, bytes.length = (Part.plain width).size → ∃ value : α,
      Settles (Serializable.serialize value) (Serializable.serialize base) bytes ((Part.plain width).tidy bytes)
        ((Part.plain width).refusal? bytes) ((Part.plain width).refusal? bytes = none) value value := by
    intro base _ bytes length
    obtain ⟨value, settles⟩ := item base bytes length
    exact ⟨value, settles.mono fun _ => trivial⟩
  have total : bytes.length = bases.toArray.size * width := by rw [bases.size_toArray, size]
  obtain ⟨values, count, settles⟩ := array each total
  rw [bases.size_toArray] at count settles
  rw [Layout.tidy_replicate rfl size, Layout.refusal?_plain] at settles
  refine ⟨⟨values, count⟩, fun sane => of_map (f := Vector.toArray) (fun _ _ => Vector.toArray_inj.mp) ?_⟩
  rw [Serializer.array, Serializer.array, Vector.toArray_mapM, Vector.toArray_mapM]
  exact settles.mono fun _ => rfl

end Settles
end Visit
end MultiClock
