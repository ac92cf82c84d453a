import Mathlib.Tactic.Linarith
import MultiClock.Serial.Serializer

/-! Laws of visitors. A visitor passes over the same number of bytes whatever it is used for. A writer and
a reader agree if the reader, on the bytes of the writer, ends up with the writer's value. -/

namespace MultiClock

namespace Serializer

/-- After bytes were counted or written. -/
def wrote (s : Serializer) (bytes : List UInt8) : Serializer :=
  { s with
    buffer := if s.mode = .save then s.buffer ++ bytes.toArray else s.buffer
    cursor := s.cursor + bytes.length }

/-- After bytes were read. -/
def took (s : Serializer) (size : Nat) : Serializer := { s with cursor := s.cursor + size }

/-- These bytes are next in the buffer. -/
def Holds (s : Serializer) (bytes : List UInt8) : Prop :=
  ∃ before after, s.buffer.toList = before ++ bytes ++ after ∧ before.length = s.cursor

theorem wrote_nil (s : Serializer) : s.wrote [] = s := by simp [wrote]

theorem wrote_append (s : Serializer) (first rest : List UInt8) : (s.wrote first).wrote rest = s.wrote (first ++ rest) := by
  simp only [wrote, List.length_append, Nat.add_assoc]
  by_cases saving : s.mode = .save <;> simp [saving]

theorem Holds.left {s : Serializer} {first rest : List UInt8} (holds : s.Holds (first ++ rest)) : s.Holds first := by
  obtain ⟨before, after, same, length⟩ := holds
  exact ⟨before, rest ++ after, by simp [same], length⟩

theorem Holds.right {s : Serializer} {first rest : List UInt8} (holds : s.Holds (first ++ rest)) :
    (s.took first.length).Holds rest := by
  obtain ⟨before, after, same, length⟩ := holds
  exact ⟨before ++ first, after, by simp [took, same], by simp [took, length]⟩

theorem Holds.inside {s : Serializer} {bytes : List UInt8} (holds : s.Holds bytes) :
    s.cursor + bytes.length ≤ s.buffer.size := by
  obtain ⟨before, after, same, length⟩ := holds
  rw [← Array.length_toList, same]
  simp only [List.length_append]
  omega

theorem Holds.next {s : Serializer} {bytes : List UInt8} (holds : s.Holds bytes) :
    bytes <+: s.buffer.toList.drop s.cursor := by
  obtain ⟨before, after, same, length⟩ := holds
  exact ⟨after, by rw [same, ← length, List.append_assoc, List.drop_left]⟩

theorem Holds.getD {s : Serializer} {bytes : List UInt8} (holds : s.Holds bytes) {position : Nat}
    (inside : position < bytes.length) : s.buffer.getD (s.cursor + position) 0 = bytes[position] := by
  have same := List.prefix_iff_getElem?.mp holds.next position inside
  rw [List.getElem?_drop, Array.getElem?_toList] at same
  rw [Array.getD_eq_getD_getElem?, same, Option.getD_some]

/-- A read that stays inside the buffer leaves no mark. -/
theorem Holds.quiet {s : Serializer} {bytes : List UInt8} (holds : s.Holds bytes) :
    (s.overrun || decide (s.buffer.size < s.cursor + bytes.length)) = s.overrun := by
  rw [decide_eq_false (Nat.not_lt.mpr holds.inside), Bool.or_false]

end Serializer

/-- The low bytes of a number, least significant first. -/
def littleEndian : (size : Nat) → Nat → List UInt8
  | 0, _ => []
  | size + 1, value => UInt8.ofNat value :: littleEndian size (value / 256)

theorem length_littleEndian (size value : Nat) : (littleEndian size value).length = size := by
  induction size generalizing value with
  | zero => rfl
  | succ size ih => rw [littleEndian, List.length_cons, ih]

theorem pushBytes_eq (size value : Nat) (bytes : Array UInt8) :
    pushBytes size value bytes = bytes ++ (littleEndian size value).toArray := by
  induction size generalizing value bytes with
  | zero => simp [pushBytes, littleEndian]
  | succ size ih =>
    rw [pushBytes, ih, littleEndian]
    simp

theorem readBytes_littleEndian {bytes : Array UInt8} {size value start : Nat} (small : value < 256 ^ size)
    (next : littleEndian size value <+: bytes.toList.drop start) : readBytes bytes size start = value := by
  -- Both take the lowest byte first, so the induction goes from the front.
  induction size generalizing value start with
  | zero =>
    rw [Nat.pow_zero] at small
    rw [readBytes]
    omega
  | succ size ih =>
    obtain ⟨tail, same⟩ := next
    rw [littleEndian, List.cons_append] at same
    have first : bytes.getD start 0 = UInt8.ofNat value := by
      have head := congrArg (·[0]?) same
      rw [List.getElem?_cons_zero, List.getElem?_drop, Nat.add_zero, Array.getElem?_toList] at head
      rw [Array.getD_eq_getD_getElem?, ← head, Option.getD_some]
    have rest : littleEndian size (value / 256) <+: bytes.toList.drop (start + 1) :=
      ⟨tail, by rw [← List.tail_drop, ← same, List.tail_cons]⟩
    have smaller : value / 256 < 256 ^ size := by
      rw [Nat.pow_succ] at small
      exact Nat.div_lt_of_lt_mul (Nat.mul_comm _ _ ▸ small)
    rw [readBytes, first, ih smaller rest, UInt8.toNat_ofNat']
    omega

open Serializer

namespace Visit

theorem bind_apply (first : Visit α) (next : α → Visit β) (s : Serializer) :
    (first >>= next) s = next (first s).1 (first s).2 := rfl

theorem map_apply (f : α → β) (visit : Visit α) (s : Serializer) : (f <$> visit) s = (f (visit s).1, (visit s).2) := rfl

/-- Counts or writes these bytes and yields the value. -/
def Writes (visit : Visit α) (value : α) (bytes : List UInt8) : Prop :=
  ∀ s : Serializer, s.mode ≠ .load → visit s = (value, s.wrote bytes)

/-- Yields the value if these bytes are next. -/
def Reads (visit : Visit α) (value : α) (bytes : List UInt8) : Prop :=
  ∀ s : Serializer, s.mode = .load → s.Holds bytes → visit s = (value, s.took bytes.length)

/-- The reader takes the bytes of the writer. -/
def Transfers (writer reader : Visit α) (written loaded : α) : Prop :=
  ∃ bytes : List UInt8, writer.Writes written bytes ∧ reader.Reads loaded bytes

/-- In this use, passes over so many bytes and yields a value with the postcondition. -/
def Yields (mode : Serializer.Mode) (size : Nat) (visit : Visit α) (post : α → Prop) : Prop :=
  ∀ s : Serializer, s.mode = mode → post (visit s).1 ∧ (visit s).2.cursor = s.cursor + size ∧ (visit s).2.mode = mode

section sequences
variable {visit : Visit α} {next : α → Visit β} {value : α} {result : β} {bytes others : List UInt8}

theorem Writes.pure (value : α) : Writes (pure value) value [] := by
  intro s _
  rw [wrote_nil]
  rfl

theorem Writes.bind (first : visit.Writes value bytes) (rest : (next value).Writes result others) :
    Writes (visit >>= next) result (bytes ++ others) := by
  intro s mode
  rw [bind_apply, first s mode]
  exact (rest (s.wrote bytes) mode).trans (by rw [wrote_append])

theorem Reads.pure (value : α) : Reads (pure value) value [] := fun _ _ _ => rfl

theorem Reads.bind (first : visit.Reads value bytes) (rest : (next value).Reads result others) :
    Reads (visit >>= next) result (bytes ++ others) := by
  intro s mode holds
  rw [bind_apply, first s mode holds.left]
  refine (rest (s.took bytes.length) mode holds.right).trans ?_
  rw [List.length_append, took, took, took, Nat.add_assoc]

theorem Writes.map (f : α → β) (writes : visit.Writes value bytes) : Writes (f <$> visit) (f value) bytes := by
  intro s mode
  rw [map_apply, writes s mode]

theorem Reads.map (f : α → β) (reads : visit.Reads value bytes) : Reads (f <$> visit) (f value) bytes := by
  intro s mode holds
  rw [map_apply, reads s mode holds]

end sequences

theorem word_writes [Word α] (value : α) :
    (Serializer.word value).Writes value (littleEndian (Word.size α) (Word.toNat value)) := by
  intro s mode
  cases used : s.mode with
  | measure => simp [Serializer.word, wrote, used, length_littleEndian]
  | save => simp [Serializer.word, wrote, used, length_littleEndian, pushBytes_eq]
  | load => exact absurd used mode

theorem byte_writes (value : UInt8) : (Serializer.word value).Writes value [value] := by
  have writes := word_writes value
  rwa [show littleEndian (Word.size UInt8) (Word.toNat value) = [value] from congrArg (fun byte => [byte]) UInt8.ofNat_toNat] at writes

theorem word_reads [Word α] (base : α) {bits : Nat} (small : bits < 256 ^ Word.size α) :
    (Serializer.word base).Reads (Word.ofNat bits) (littleEndian (Word.size α) bits) := by
  intro s mode holds
  have quiet := holds.quiet
  have same := readBytes_littleEndian small holds.next
  rw [length_littleEndian] at quiet ⊢
  simp only [Serializer.word, mode, same, took, quiet]

theorem bytes_writes (data : Vector UInt8 n) : (Serializer.bytes data).Writes data data.toList := by
  intro s mode
  cases used : s.mode with
  | measure => simp [Serializer.bytes, wrote, used]
  | save => simp [Serializer.bytes, wrote, used, Vector.toList]
  | load => exact absurd used mode

/-- A load takes every byte of a block from its place, and nothing is behind the end. -/
theorem bytes_load {s : Serializer} (loading : s.mode = .load) (base : Vector UInt8 n) :
    Serializer.bytes base s = (Vector.ofFn fun i => s.buffer.getD (s.cursor + i) 0,
      { s with cursor := s.cursor + n, overrun := s.overrun || decide (s.buffer.size - s.cursor < n) }) := by
  simp only [Serializer.bytes, loading]
  refine Prod.ext (Vector.ext fun position inside => ?_) ?_
  · simp only [Vector.getElem_ofFn, Vector.getElem_mk, Array.getD_eq_getD_getElem?]
    by_cases there : s.cursor + position < s.buffer.size
    · rw [Array.getElem_append_left (by grind), Array.getElem_extract, Array.getElem?_eq_getElem there, Option.getD_some]
      congr 1
      omega
    · rw [Array.getElem_append_right (by grind), Array.getElem_replicate, Array.getElem?_eq_none (by omega), Option.getD_none]
  · have short : min (s.buffer.size - min s.cursor s.buffer.size) n < n ↔ s.buffer.size - s.cursor < n := by omega
    simp only [short]

theorem bytes_reads (data base : Vector UInt8 n) : (Serializer.bytes base).Reads data data.toList := by
  intro s mode holds
  have inside := holds.inside
  rw [Vector.length_toList] at inside ⊢
  have enough : ¬s.buffer.size - s.cursor < n := by omega
  have same : (Vector.ofFn fun i : Fin n => s.buffer.getD (s.cursor + i) 0) = data := by
    refine Vector.ext fun position small => ?_
    rw [Vector.getElem_ofFn, holds.getD (by simpa using small), Vector.getElem_toList]
  rw [bytes_load mode, same, decide_eq_false enough, Bool.or_false, took]

namespace Transfers

theorem pure (written loaded : α) : Transfers (pure written) (pure loaded) written loaded :=
  ⟨[], .pure written, .pure loaded⟩

theorem bind {writer reader : Visit α} {next follow : α → Visit β} {written loaded : α} {result final : β}
    (first : Transfers writer reader written loaded) (rest : Transfers (next written) (follow loaded) result final) :
    Transfers (writer >>= next) (reader >>= follow) result final := by
  obtain ⟨bytes, writes, reads⟩ := first
  obtain ⟨others, continues, follows⟩ := rest
  exact ⟨bytes ++ others, writes.bind continues, reads.bind follows⟩

theorem as {writer reader : Visit α} {written loaded result final : α} (transfers : Transfers writer reader written loaded)
    (same : written = result) (alike : loaded = final) : Transfers writer reader result final :=
  same ▸ alike ▸ transfers

theorem map {writer reader : Visit α} {written loaded : α} (f : α → β) (transfers : Transfers writer reader written loaded) :
    Transfers (f <$> writer) (f <$> reader) (f written) (f loaded) := by
  obtain ⟨bytes, writes, reads⟩ := transfers
  exact ⟨bytes, writes.map f, reads.map f⟩

/-- What is transferred in another form is transferred. -/
theorem of_map {writer reader : Visit α} {written loaded : α} {f : α → β} (injective : ∀ a b, f a = f b → a = b)
    (transfers : Transfers (f <$> writer) (f <$> reader) (f written) (f loaded)) :
    Transfers writer reader written loaded := by
  have lift : ∀ (visit : Visit α) (value : α) (s after : Serializer), (f <$> visit) s = (f value, after) →
      visit s = (value, after) := by
    intro visit value s after same
    obtain ⟨image, rest⟩ := Prod.ext_iff.mp same
    exact Prod.ext (injective _ _ image) rest
  obtain ⟨bytes, writes, reads⟩ := transfers
  exact ⟨bytes, fun s mode => lift _ _ _ _ (writes s mode), fun s mode holds => lift _ _ _ _ (reads s mode holds)⟩

theorem word [Word α] (value base : α) : Transfers (Serializer.word value) (Serializer.word base) value value := by
  have reads := word_reads base (Word.toNat_lt value)
  rw [Word.ofNat_toNat] at reads
  exact ⟨_, word_writes value, reads⟩

theorem bytes (data base : Vector UInt8 n) : Transfers (Serializer.bytes data) (Serializer.bytes base) data data :=
  ⟨_, bytes_writes data, bytes_reads data base⟩

theorem boolean (value base : Bool) : Transfers (Serializer.boolean value) (Serializer.boolean base) value value := by
  obtain ⟨bytes, writes, reads⟩ := word (if value then 1 else 0 : UInt8) (if base then 1 else 0)
  refine ⟨bytes, fun s mode => ?_, fun s mode holds => ?_⟩
  · rw [Serializer.boolean, bind_apply, writes s mode]
    exact Prod.ext (if_neg mode) rfl
  · rw [Serializer.boolean, bind_apply, reads s mode holds]
    refine Prod.ext ((if_pos mode).trans ?_) rfl
    cases value <;> rfl

/-- A value that is accepted is kept on both sides. -/
theorem require {field : String} {holds : Bool} (accepted : holds = true) (value default : α) :
    Transfers (Serializer.require field holds value default) (Serializer.require field holds value default) value value := by
  rw [Serializer.require, if_pos accepted]
  exact pure value value

/-- Lists are passed over item by item. What is loaded of an item may depend on the item that was there. -/
theorem list (merge : α → α → α) {visit : α → Visit α} {values bases : List α} (length : values.length = bases.length)
    (item : ∀ (position : Nat) (value base : α), values[position]? = some value → bases[position]? = some base →
      Transfers (visit value) (visit base) value (merge value base)) :
    Transfers (values.mapM visit) (bases.mapM visit) values (List.zipWith merge values bases) := by
  induction values generalizing bases with
  | nil =>
    rw [List.length_eq_zero_iff.mp length.symm]
    exact pure [] []
  | cons value values ih =>
    cases bases with
    | nil => cases length
    | cons base bases =>
      rw [List.mapM_cons, List.mapM_cons]
      refine bind (item 0 value base rfl rfl) (bind (ih (Nat.succ.inj length) ?_) (pure _ _))
      exact fun position first second here there => item (position + 1) first second here there

theorem arrayWith (merge : α → α → α) {visit : α → Visit α} {values bases : Array α} (size : values.size = bases.size)
    (item : ∀ (position : Nat) (value base : α), values[position]? = some value → bases[position]? = some base →
      Transfers (visit value) (visit base) value (merge value base)) :
    Transfers (values.mapM visit) (bases.mapM visit) values (Array.zipWith merge values bases) := by
  refine of_map (f := Array.toList) (fun _ _ => Array.ext') ?_
  rw [Array.toList_mapM, Array.toList_mapM, Array.toList_zipWith]
  refine list merge size fun position value base here there => item position value base ?_ ?_
  · rwa [Array.getElem?_toList] at here
  · rwa [Array.getElem?_toList] at there

theorem array {visit : α → Visit α} {values bases : Array α} (size : values.size = bases.size)
    (item : ∀ (position : Nat) (value base : α), values[position]? = some value → bases[position]? = some base →
      Transfers (visit value) (visit base) value value) :
    Transfers (values.mapM visit) (bases.mapM visit) values values := by
  have same : Array.zipWith (fun value _ => value) values bases = values := by
    apply Array.ext
    · rw [Array.size_zipWith, size, Nat.min_self]
    · intro position _ _
      exact Array.getElem_zipWith _
  exact (arrayWith (fun value _ => value) size item).as rfl same

theorem vector [Serializable α]
    (item : ∀ value base : α, Transfers (Serializable.serialize value) (Serializable.serialize base) value value)
    (values bases : Vector α n) : Transfers (Serializer.array values) (Serializer.array bases) values values := by
  refine of_map (f := Vector.toArray) (fun _ _ => Vector.toArray_inj.mp) ?_
  rw [Serializer.array, Serializer.array, Vector.toArray_mapM, Vector.toArray_mapM]
  exact array (values.size_toArray.trans bases.size_toArray.symm) fun _ value base _ _ => item value base

/-- A writer that keeps its state passes over items one after the other, and the reader takes each. What
was taken once is not lost to later items. -/
theorem fold {visit : β → ι → Visit β} {source : β} (holds : β → Prop) (done : ι → β → Prop) (items : List ι)
    (step : ∀ item ∈ items, ∀ base, holds base → ∃ loaded, Transfers (visit source item) (visit base item) source loaded ∧
      holds loaded ∧ done item loaded ∧ ∀ other, done other base → done other loaded) {base : β} (held : holds base) :
    ∃ loaded, Transfers (items.foldlM visit source) (items.foldlM visit base) source loaded ∧ holds loaded ∧
      (∀ item ∈ items, done item loaded) ∧ ∀ other, done other base → done other loaded := by
  induction items generalizing base with
  | nil => exact ⟨base, pure source base, held, by simp, fun _ => id⟩
  | cons item items ih =>
    obtain ⟨middle, first, held, here, kept⟩ := step item List.mem_cons_self base held
    obtain ⟨loaded, rest, held, others, keeps⟩ :=
      ih (fun other member => step other (List.mem_cons_of_mem item member)) held
    refine ⟨loaded, first.bind rest, held, fun other member => ?_, fun other before => keeps other (kept other before)⟩
    cases member with
    | head => exact keeps item here
    | tail _ member => exact others other member

end Transfers

namespace Yields
variable {mode : Serializer.Mode} {size more : Nat} {post : α → Prop}

theorem pure {value : α} (holds : post value) : Yields mode 0 (pure value) post :=
  fun _ used => ⟨holds, rfl, used⟩

theorem bind {visit : Visit α} {next : α → Visit β} {final : β → Prop} (first : Yields mode size visit post)
    (rest : ∀ value, post value → Yields mode more (next value) final) : Yields mode (size + more) (visit >>= next) final := by
  intro s used
  obtain ⟨held, passed, kept⟩ := first s used
  obtain ⟨holds, after, same⟩ := rest _ held (visit s).2 kept
  exact ⟨holds, by rw [bind_apply, after, passed, Nat.add_assoc], same⟩

theorem mono {visit : Visit α} {weaker : α → Prop} (yields : Yields mode size visit post)
    (implies : ∀ value, post value → weaker value) : Yields mode size visit weaker :=
  fun s used => ⟨implies _ (yields s used).1, (yields s used).2⟩

theorem of_size {visit : Visit α} (yields : Yields mode size visit post) (same : size = more) :
    Yields mode more visit post := same ▸ yields

theorem map {visit : Visit α} {final : β → Prop} (f : α → β) (yields : Yields mode size visit fun value => final (f value)) :
    Yields mode size (f <$> visit) final := yields

theorem word [Word α] (value : α) :
    Yields mode (Word.size α) (Serializer.word value) fun later => mode ≠ .load → later = value := by
  rintro s rfl
  unfold Serializer.word
  split <;> simp_all

theorem bytes (data : Vector UInt8 n) : Yields mode n (Serializer.bytes data) fun later => mode ≠ .load → later = data := by
  rintro s rfl
  cases used : s.mode with
  | measure => simp [Serializer.bytes, used]
  | save => simp [Serializer.bytes, used]
  | load => simp [bytes_load used, used]

theorem boolean (value : Bool) : Yields mode 1 (Serializer.boolean value) fun later => mode ≠ .load → later = value := by
  intro s used
  obtain ⟨_, passed, kept⟩ : _ ∧ _ ∧ _ := word (if value then 1 else 0 : UInt8) s used
  exact ⟨fun writing => if_neg (kept ▸ writing), passed, kept⟩

theorem reject (field : String) : Yields mode 0 (Serializer.reject field) fun _ => True := by
  rintro s rfl
  refine ⟨trivial, ?_⟩
  simp only [Serializer.reject, modify, modifyGet, MonadStateOf.modifyGet, StateT.modifyGet, Pure.pure]
  split <;> exact ⟨rfl, rfl⟩

theorem require (field : String) (holds : Bool) (value default : α) :
    Yields mode 0 (Serializer.require field holds value default) fun later =>
      holds = true ∧ later = value ∨ holds = false ∧ later = default := by
  cases holds with
  | true => exact pure (.inl ⟨rfl, rfl⟩)
  | false => exact (reject field).bind fun _ _ => pure (.inr ⟨rfl, rfl⟩)

/-- A value is decoded, or a default takes its place. What was written can be decoded. -/
theorem decoded {visit : Visit α} {found : Option α} {value : α} (known : mode ≠ .load → found = some value)
    (field : String) (default : α)
    (same : visit = found.elim (do Serializer.reject field; Pure.pure default) Pure.pure) :
    Yields mode 0 visit fun later => mode ≠ .load → later = value := by
  subst same
  cases found with
  | some later => exact pure fun writing => Option.some.inj (known writing)
  | none => exact (reject field).bind fun _ _ => pure fun writing => absurd (known writing) (by simp)

theorem list {visit : α → Visit α} {fit : α → α → Prop} (values : List α)
    (item : ∀ value ∈ values, Yields mode size (visit value) (fit value)) :
    Yields mode (values.length * size) (values.mapM visit) fun later => later.length = values.length ∧
      ∀ (position : Nat) value, values[position]? = some value → ∃ after, later[position]? = some after ∧ fit value after := by
  induction values with
  | nil =>
    rw [List.length_nil, Nat.zero_mul]
    exact pure ⟨rfl, fun _ _ found => by simp at found⟩
  | cons value values ih =>
    rw [List.mapM_cons]
    have rest := ih fun other member => item other (List.mem_cons_of_mem value member)
    refine ((item value List.mem_cons_self).bind fun first fits => rest.bind fun later held => pure ?_).of_size ?_
    · refine ⟨by simp [held.1], fun position other found => ?_⟩
      cases position with
      | zero =>
        cases found
        exact ⟨first, rfl, fits⟩
      | succ position => exact held.2 position other found
    · rw [List.length_cons, Nat.succ_mul]
      omega

theorem array {visit : α → Visit α} {fit : α → α → Prop} (values : Array α)
    (item : ∀ value ∈ values, Yields mode size (visit value) (fit value)) :
    Yields mode (values.size * size) (values.mapM visit) fun later => later.size = values.size ∧
      ∀ (position : Nat) value, values[position]? = some value → ∃ after, later[position]? = some after ∧ fit value after := by
  have listed := list values.toList fun value member => item value (Array.mem_toList_iff.mp member)
  rw [← Array.toList_mapM] at listed
  intro s used
  obtain ⟨⟨length, held⟩, passed, kept⟩ := listed s used
  refine ⟨⟨length, fun position value found => ?_⟩, passed, kept⟩
  obtain ⟨after, there, fits⟩ := held position value (by rwa [Array.getElem?_toList])
  exact ⟨after, by rwa [map_apply, Array.getElem?_toList] at there, fits⟩

theorem vector [Serializable α] (item : ∀ value : α, Yields mode size (Serializable.serialize value) fun later =>
    mode ≠ .load → later = value) (values : Vector α n) :
    Yields mode (n * size) (Serializer.array values) fun later => mode ≠ .load → later = values := by
  have inner := array values.toArray fun value _ => item value
  have same : Vector.toArray <$> values.mapM (Serializable.serialize : α → Visit α) = _ := Vector.toArray_mapM
  rw [← same, values.size_toArray] at inner
  intro s used
  obtain ⟨⟨_, held⟩, passed, kept⟩ := inner s used
  refine ⟨fun writing => Vector.ext fun position inside => ?_, passed, kept⟩
  obtain ⟨after, there, fits⟩ := held position values[position] (by simp [inside])
  have found : (Serializer.array values s).1.toArray[position]? = some after := there
  rw [fits writing, Vector.getElem?_toArray, Vector.getElem?_eq_getElem inside] at found
  exact Option.some.inj found

/-- Items are passed over one after the other. What holds of an item once is not lost to later items. -/
theorem fold {visit : β → ι → Visit β} {sizes : ι → Nat} (holds : β → Prop) (done : ι → β → Prop) (items : List ι)
    (step : ∀ item ∈ items, ∀ state, holds state → Yields mode (sizes item) (visit state item) fun later =>
      holds later ∧ done item later ∧ ∀ other, done other state → done other later) {start : β} (held : holds start) :
    Yields mode (items.map sizes).sum (items.foldlM visit start) fun later =>
      holds later ∧ (∀ item ∈ items, done item later) ∧ ∀ other, done other start → done other later := by
  induction items generalizing start with
  | nil => exact pure ⟨held, by simp, fun _ => id⟩
  | cons item items ih =>
    rw [List.foldlM_cons, List.map_cons, List.sum_cons]
    refine (step item List.mem_cons_self start held).bind ?_
    rintro middle ⟨held, here, kept⟩
    refine (ih (fun other member => step other (List.mem_cons_of_mem item member)) held).mono ?_
    rintro later ⟨held, others, keeps⟩
    refine ⟨held, fun other member => ?_, fun other before => keeps other (kept other before)⟩
    cases member with
    | head => exact keeps item here
    | tail _ member => exact others other member

end Yields

/-- A visit that writes yields what it was given. -/
theorem Yields.exactly {mode : Serializer.Mode} {visit : Visit α} {value : α} {bytes : List UInt8} {size : Nat} {post : α → Prop}
    (yields : Yields mode size visit post) (writing : mode ≠ .load) (writes : Writes visit value bytes) :
    Yields mode size visit (· = value) := by
  intro s used
  exact ⟨congrArg Prod.fst (writes s (used ▸ writing)), (yields s used).2⟩

theorem Writes.length {visit : Visit α} {value : α} {bytes : List UInt8} {size : Nat} {post : α → Prop}
    (writes : Writes visit value bytes) (yields : Yields .measure size visit post) : bytes.length = size := by
  have counted := (yields Serializer.measure rfl).2.1
  rw [writes Serializer.measure (by decide)] at counted
  simpa [Serializer.wrote, Serializer.measure] using counted

end Visit
end MultiClock
