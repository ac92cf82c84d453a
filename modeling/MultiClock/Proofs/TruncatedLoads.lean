import MultiClock.Proofs.SerializerLaws

/-! Loading what was saved, in whole or cut off anywhere. Any list of fields that visitors pass over is written down as a list of shapes,
and what is in such fields as the scalars in them, one after another. A load that runs out of bytes reads zeros. -/

namespace MultiClock
namespace Serializer

inductive Integer
  | u8 | u16 | u32 | u64 | i8 | i16 | i32 | i64
deriving DecidableEq

def Integer.Value : Integer → Type
  | u8 => UInt8
  | u16 => UInt16
  | u32 => UInt32
  | u64 => UInt64
  | i8 => Int8
  | i16 => Int16
  | i32 => Int32
  | i64 => Int64

instance : (kind : Integer) → Word kind.Value
  | .u8 => inferInstanceAs (Word UInt8)
  | .u16 => inferInstanceAs (Word UInt16)
  | .u32 => inferInstanceAs (Word UInt32)
  | .u64 => inferInstanceAs (Word UInt64)
  | .i8 => inferInstanceAs (Word Int8)
  | .i16 => inferInstanceAs (Word Int16)
  | .i32 => inferInstanceAs (Word Int32)
  | .i64 => inferInstanceAs (Word Int64)

/-- What a visitor passes over: an integer, a flag, a block of bytes, an array, or an object with its fields. -/
inductive Shape
  | integer (kind : Integer)
  | boolean
  | bytes (size : Nat)
  | array (length : Nat) (item : Shape)
  | object (fields : List Shape)

mutual
def Shape.Value : Shape → Type
  | .integer kind => kind.Value
  | .boolean => Bool
  | .bytes size => Vector UInt8 size
  | .array length item => Vector (Shape.Value item) length
  | .object fields => Shape.Values fields
termination_by structural shape => shape

def Shape.Values : List Shape → Type
  | [] => Unit
  | field :: fields => Shape.Value field × Shape.Values fields
termination_by structural fields => fields
end

mutual
def Shape.visit : (shape : Shape) → shape.Value → Visit shape.Value
  | .integer kind, value => @Serializer.word kind.Value _ value
  | .boolean, value => Serializer.boolean value
  | .bytes _, data => Serializer.bytes data
  | .array _ item, values => @Serializer.array _ _ ⟨Shape.visit item⟩ values
  | .object fields, values => Shape.visitAll fields values
termination_by structural shape => shape

def Shape.visitAll : (fields : List Shape) → Shape.Values fields → Visit (Shape.Values fields)
  | [], values => pure values
  | field :: fields, values => do
    let value ← Shape.visit field values.1
    let values ← Shape.visitAll fields values.2
    return (value, values)
termination_by structural fields => fields
end

/-- A field in one piece: an integer or a flag. A block of bytes is made of single bytes. -/
inductive Scalar
  | number (kind : Integer) (value : kind.Value)
  | flag (value : Bool)

namespace Scalar

def byte (value : UInt8) : Scalar := number .u8 value

def size : Scalar → Nat
  | number kind _ => Word.size kind.Value
  | flag _ => 1

/-- What is in its bytes, least significant first. -/
def bits : Scalar → Nat
  | number _ value => Word.toNat value
  | flag value => if value then 1 else 0

/-- What is read if only so many of its bytes are there. -/
def cut (available : Nat) : Scalar → Scalar
  | number kind value => number kind (Word.ofNat (Word.toNat value % 256 ^ available))
  | flag value => flag (value && decide (0 < available))

/-- What is read if none of its bytes is there. -/
def zero : Scalar → Scalar
  | number kind _ => number kind (Word.ofNat 0)
  | flag _ => flag false

end Scalar

mutual
/-- The scalars in a value, in their order. -/
def Shape.scalars : (shape : Shape) → shape.Value → List Scalar
  | .integer kind, value => [.number kind value]
  | .boolean, value => [.flag value]
  | .bytes _, data => (show Vector UInt8 _ from data).toList.map Scalar.byte
  | .array _ item, values => (show Vector (Shape.Value item) _ from values).toList.flatMap (Shape.scalars item)
  | .object fields, values => Shape.scalarsOf fields values
termination_by structural shape => shape

def Shape.scalarsOf : (fields : List Shape) → Shape.Values fields → List Scalar
  | [], _ => []
  | field :: fields, values => Shape.scalars field values.1 ++ Shape.scalarsOf fields values.2
termination_by structural fields => fields
end

namespace Scalar

theorem cut_of_size_le {available : Nat} (scalar : Scalar) (enough : scalar.size ≤ available) : scalar.cut available = scalar := by
  cases scalar with
  | number kind value =>
    have small := Nat.lt_of_lt_of_le (Word.toNat_lt value) (Nat.pow_le_pow_right (by norm_num) enough)
    rw [cut, Nat.mod_eq_of_lt small, Word.ofNat_toNat]
  | flag value =>
    have inside : 0 < available := enough
    simp [cut, inside]

theorem cut_byte (value : UInt8) (available : Nat) : (byte value).cut available = byte (if 0 < available then value else 0) := by
  cases available with
  | zero =>
    rw [if_neg (Nat.lt_irrefl 0)]
    simp only [byte, cut, Nat.pow_zero, Nat.mod_one]
    rfl
  | succ available =>
    rw [if_pos (Nat.succ_pos available)]
    exact cut_of_size_le _ (Nat.succ_pos available)

theorem cut_zero (scalar : Scalar) : scalar.cut 0 = scalar.zero := by
  cases scalar with
  | number kind value => rw [cut, zero, Nat.pow_zero, Nat.mod_one]
  | flag value => simp [cut, zero]

theorem size_pos (scalar : Scalar) : 0 < scalar.size := by
  cases scalar with
  | number kind value => cases kind <;> exact Nat.succ_pos _
  | flag value => exact Nat.one_pos

end Scalar

def sizes (scalars : List Scalar) : Nat := (scalars.map Scalar.size).sum

def encode (scalars : List Scalar) : List UInt8 := scalars.flatMap fun scalar => littleEndian scalar.size scalar.bits

/-- What is read of some scalars if only so many of their bytes are there. -/
def cutAll (available : Nat) : List Scalar → List Scalar
  | [] => []
  | scalar :: scalars => scalar.cut available :: cutAll (available - scalar.size) scalars

section scalars
variable (first rest : List Scalar) (available : Nat)

theorem sizes_append : sizes (first ++ rest) = sizes first + sizes rest := by
  rw [sizes, List.map_append, List.sum_append]
  rfl

theorem encode_append : encode (first ++ rest) = encode first ++ encode rest := List.flatMap_append

theorem length_encode : (encode first).length = sizes first := by
  simp only [encode, sizes, List.length_flatMap, length_littleEndian]

theorem cutAll_append : cutAll available (first ++ rest) = cutAll available first ++ cutAll (available - sizes first) rest := by
  induction first generalizing available with
  | nil => rfl
  | cons scalar first ih =>
    rw [List.cons_append, cutAll, cutAll, ih, List.cons_append, Nat.sub_sub]
    rfl

theorem length_cutAll : (cutAll available first).length = first.length := by
  induction first generalizing available with
  | nil => rfl
  | cons scalar first ih => rw [cutAll, List.length_cons, List.length_cons, ih]

end scalars

theorem encode_bytes (bytes : List UInt8) : encode (bytes.map Scalar.byte) = bytes := by
  induction bytes with
  | nil => rfl
  | cons byte bytes ih =>
    have single : encode [Scalar.byte byte] = [byte] := congrArg (fun byte => [byte]) UInt8.ofNat_toNat
    rw [List.map_cons, ← List.singleton_append, encode_append, single, ih, List.singleton_append]

theorem sizes_bytes (bytes : List UInt8) : sizes (bytes.map Scalar.byte) = bytes.length := by
  rw [← length_encode, encode_bytes]

theorem cutAll_bytes (bytes : List UInt8) (available : Nat) :
    cutAll available (bytes.map Scalar.byte) =
      (bytes.mapIdx fun position byte => if position < available then byte else 0).map Scalar.byte := by
  induction bytes generalizing available with
  | nil => rfl
  | cons byte bytes ih =>
    have rest : ∀ position, position < available - 1 ↔ position + 1 < available := by
      intro position
      omega
    have one : (Scalar.byte byte).size = 1 := rfl
    rw [List.map_cons, cutAll, Scalar.cut_byte, one, ih, List.mapIdx_cons, List.map_cons]
    simp only [rest]

/-- The first so many of these bytes are next in the buffer. If there are more of them, the buffer ends there. -/
def Offers (s : Serializer) (bytes : List UInt8) (available : Nat) : Prop :=
  ∀ position < bytes.length, s.buffer[s.cursor + position]? = if position < available then bytes[position]? else none

/-- After a read of so many bytes, of which the buffer held some. -/
def passed (s : Serializer) (size available : Nat) : Serializer :=
  { s with cursor := s.cursor + size, overrun := s.overrun || decide (available < size) }

section offers
variable {s : Serializer} {bytes first rest : List UInt8} {available : Nat}

theorem passed_passed (s : Serializer) (size more available : Nat) :
    (s.passed size available).passed more (available - size) = s.passed (size + more) available := by
  have either : (decide (available < size) || decide (available - size < more)) = decide (available < size + more) := by
    rw [Bool.eq_iff_iff, Bool.or_eq_true, decide_eq_true_iff, decide_eq_true_iff, decide_eq_true_iff]
    omega
  simp only [passed, Nat.add_assoc, Bool.or_assoc, either]

theorem Offers.left (offers : s.Offers (first ++ rest) available) : s.Offers first available := by
  intro position inside
  rw [offers position (by rw [List.length_append]; omega), List.getElem?_append_left inside]

theorem Offers.right (offers : s.Offers (first ++ rest) available) :
    (s.passed first.length available).Offers rest (available - first.length) := by
  intro position inside
  have there := offers (first.length + position) (by rw [List.length_append]; omega)
  rw [List.getElem?_append_right (Nat.le_add_right _ _), Nat.add_sub_cancel_left, ← Nat.add_assoc] at there
  rw [passed, there]
  exact if_congr (by omega) rfl rfl

theorem Offers.beyond (offers : s.Offers bytes available) (some : 0 < bytes.length) :
    s.buffer.size < s.cursor + bytes.length ↔ available < bytes.length := by
  have last := offers (bytes.length - 1) (by omega)
  by_cases short : available < bytes.length
  · rw [if_neg (by omega), Array.getElem?_eq_none_iff] at last
    exact ⟨fun _ => short, fun _ => by omega⟩
  · rw [if_pos (by omega), List.getElem?_eq_getElem (by omega), Array.getElem?_eq_some_iff] at last
    obtain ⟨inside, _⟩ := last
    exact ⟨fun beyond => by omega, fun beyond => absurd beyond short⟩

theorem Offers.getD (offers : s.Offers bytes available) {position : Nat} (inside : position < bytes.length) :
    s.buffer.getD (s.cursor + position) 0 = if position < available then bytes.getD position 0 else 0 := by
  rw [Array.getD_eq_getD_getElem?, offers position inside, List.getD_eq_getElem?_getD]
  split <;> rfl

theorem offers_take (bytes : List UInt8) (available : Nat) : (load (bytes.take available).toArray).Offers bytes available := by
  intro position inside
  rw [load, Nat.zero_add, List.getElem?_toArray, List.getElem?_take]

end offers

theorem readBytes_cut {s : Serializer} {size value available : Nat} (small : value < 256 ^ size)
    (offers : s.Offers (littleEndian size value) available) : readBytes s.buffer size s.cursor = value % 256 ^ available := by
  induction size generalizing s value available with
  | zero =>
    obtain rfl : value = 0 := Nat.lt_one_iff.mp small
    rw [readBytes, Nat.zero_mod]
  | succ size ih =>
    have smaller : value / 256 < 256 ^ size := Nat.div_lt_of_lt_mul (by rwa [Nat.pow_succ, Nat.mul_comm] at small)
    have here : s.buffer.getD s.cursor 0 = if 0 < available then UInt8.ofNat value else 0 :=
      @Offers.getD s _ available offers 0 (by rw [length_littleEndian]; exact Nat.succ_pos size)
    have split : littleEndian (size + 1) value = [UInt8.ofNat value] ++ littleEndian size (value / 256) := rfl
    rw [split] at offers
    have more : readBytes s.buffer size (s.cursor + 1) = value / 256 % 256 ^ (available - 1) := ih smaller offers.right
    rw [readBytes, here, more]
    cases available with
    | zero => rw [if_neg (Nat.lt_irrefl 0), Nat.zero_sub, Nat.pow_zero, Nat.mod_one, Nat.mod_one, UInt8.toNat_zero]
    | succ available =>
      have digits : value % 256 ^ (available + 1) = value % 256 + 256 * (value / 256 % 256 ^ available) := by
        rw [Nat.pow_succ', Nat.mod_mul]
      rw [if_pos (Nat.succ_pos available), UInt8.toNat_ofNat', Nat.add_sub_cancel, digits]

end Serializer

open Serializer

namespace Visit

/-- With so many bytes of a value left, reads what they leave of it, or all of it if they are enough. -/
def Cuts (scalars : α → List Scalar) (visit : Visit α) (value : α) (available : Nat) : Prop :=
  ∃ loaded, scalars loaded = cutAll available (scalars value) ∧ (sizes (scalars value) ≤ available → loaded = value) ∧
    ∀ s : Serializer, s.mode = .load → s.Offers (encode (scalars value)) available →
      visit s = (loaded, s.passed (sizes (scalars value)) available)

theorem toList_array (visit : α → Visit α) (values : Vector α n) :
    Vector.toList <$> @Serializer.array _ _ ⟨visit⟩ values = values.toList.mapM visit := by
  have arrayed : Vector.toArray <$> values.mapM visit = values.toArray.mapM visit := Vector.toArray_mapM
  exact (congrArg (Array.toList <$> ·) arrayed).trans Array.toList_mapM

namespace Cuts
variable {available : Nat}

theorem nothing {scalars : α → List Scalar} {value : α} (none : scalars value = []) : Cuts scalars (pure value) value available := by
  refine ⟨value, by rw [none, cutAll], fun _ => rfl, fun s _ _ => ?_⟩
  rw [none]
  simp [passed, sizes]
  rfl

theorem join {first : Visit α} {second : Visit β} {combine : α → β → γ} {scalars : γ → List Scalar} {one : α → List Scalar}
    {other : β → List Scalar} {x : α} {y : β} (splits : ∀ x y, scalars (combine x y) = one x ++ other y)
    (begins : Cuts one first x available) (ends : Cuts other second y (available - sizes (one x))) :
    Cuts scalars (do let a ← first; let b ← second; pure (combine a b)) (combine x y) available := by
  obtain ⟨start, cut, same, reads⟩ := begins
  obtain ⟨rest, rests, alike, continues⟩ := ends
  refine ⟨combine start rest, ?_, ?_, ?_⟩
  · rw [splits, splits, cut, rests, cutAll_append]
  · intro enough
    rw [splits, sizes_append] at enough
    rw [same (by omega), alike (by omega)]
  · intro s loading offers
    rw [splits, encode_append] at offers
    have right := offers.right
    rw [length_encode] at right
    have next := continues (s.passed (sizes (one x)) available) loading right
    rw [bind_apply, reads s loading offers.left, bind_apply, next, passed_passed, splits, sizes_append]
    rfl

theorem word_read [Word α] {value base : α} {s : Serializer} (size : 0 < Word.size α) (loading : s.mode = .load)
    (offers : s.Offers (littleEndian (Word.size α) (Word.toNat value)) available) :
    Serializer.word base s = (Word.ofNat (Word.toNat value % 256 ^ available), s.passed (Word.size α) available) := by
  have beyond := offers.beyond (by rwa [length_littleEndian])
  rw [length_littleEndian] at beyond
  simp only [Serializer.word, loading, readBytes_cut (Word.toNat_lt value) offers, passed, beyond]

theorem word (kind : Integer) (value base : kind.Value) :
    Cuts (fun value => [.number kind value]) (Serializer.word base) value available := by
  have size : sizes [.number kind value] = Word.size kind.Value := Nat.add_zero _
  have bytes : encode [.number kind value] = littleEndian (Word.size kind.Value) (Word.toNat value) := List.append_nil _
  refine ⟨Word.ofNat (Word.toNat value % 256 ^ available), rfl, fun enough => ?_, fun s loading offers => ?_⟩
  · rw [size] at enough
    have same := (Scalar.number kind value).cut_of_size_le enough
    rw [Scalar.cut, Scalar.number.injEq] at same
    exact eq_of_heq same.2
  · rw [bytes] at offers
    rw [size]
    exact word_read (Scalar.number kind value).size_pos loading offers

/-- A flag is one byte, and any byte but zero is read as true. -/
theorem boolean (value base : Bool) : Cuts (fun value => [.flag value]) (Serializer.boolean base) value available := by
  refine ⟨value && decide (0 < available), rfl, fun enough => ?_, fun s loading offers => ?_⟩
  · have inside : 0 < available := enough
    rw [decide_eq_true inside, Bool.and_true]
  · have byte : encode [.flag value] = littleEndian (Word.size UInt8) (Word.toNat (if value then 1 else 0 : UInt8)) := by
      cases value <;> rfl
    rw [byte] at offers
    have read : (UInt8.ofNat ((if value then 1 else 0 : UInt8).toNat % 256 ^ available) != 0) = (value && decide (0 < available)) := by
      cases available with
      | zero => cases value <;> rfl
      | succ available =>
        have large : 1 < 256 ^ (available + 1) := Nat.one_lt_pow (Nat.succ_ne_zero available) (by norm_num)
        cases value <;> simp [Nat.mod_eq_of_lt large]
    have visited := @word_read available UInt8 _ _ (if base then 1 else 0) s Nat.one_pos loading offers
    rw [Serializer.boolean, bind_apply, visited]
    exact Prod.ext ((if_pos loading).trans read) rfl

theorem bytes (data base : Vector UInt8 n) :
    Cuts (fun data : Vector UInt8 n => data.toList.map Scalar.byte) (Serializer.bytes base) data available := by
  refine ⟨Vector.ofFn fun i => if i < available then data.toList.getD i 0 else 0, ?_, fun enough => ?_, fun s loading offers => ?_⟩
  · have listed : (Vector.ofFn fun i : Fin n => if i < available then data.toList.getD i 0 else 0).toList =
        data.toList.mapIdx fun position byte => if position < available then byte else 0 := by
      apply List.ext_getElem
      · rw [Vector.length_toList, List.length_mapIdx, Vector.length_toList]
      · intro position here there
        simp
    rw [cutAll_bytes, ← listed]
  · rw [sizes_bytes, Vector.length_toList] at enough
    apply Vector.ext
    intro position inside
    rw [Vector.getElem_ofFn, if_pos (Nat.lt_of_lt_of_le inside enough)]
    simp [inside]
  · rw [encode_bytes] at offers
    rw [sizes_bytes, Vector.length_toList]
    have read : (Vector.ofFn fun i : Fin n => s.buffer.getD (s.cursor + i) 0) =
        Vector.ofFn fun i : Fin n => if i < available then data.toList.getD i 0 else 0 := by
      congr 1
      funext i
      exact offers.getD (by rw [Vector.length_toList]; exact i.isLt)
    have beyond : s.buffer.size - s.cursor < n ↔ available < n := by
      rcases Nat.eq_zero_or_pos n with none | some
      · omega
      · have past := offers.beyond (by rwa [Vector.length_toList])
        rw [Vector.length_toList] at past
        omega
    simp only [bytes_load loading, read, passed, beyond]

theorem list {scalars : α → List Scalar} {visit : α → Visit α}
    (item : ∀ value base available, Cuts scalars (visit base) value available) (values bases : List α)
    (length : bases.length = values.length) (available : Nat) :
    Cuts (fun values => values.flatMap scalars) (bases.mapM visit) values available := by
  induction values generalizing bases available with
  | nil =>
    rw [List.length_eq_zero_iff.mp length]
    exact nothing rfl
  | cons value values ih =>
    cases bases with
    | nil => cases length
    | cons base bases =>
      rw [List.mapM_cons]
      have rest := ih bases (Nat.succ.inj length) (available - sizes (scalars value))
      exact join (fun _ _ => List.flatMap_cons) (item value base available) rest

/-- What is cut off in another form is cut off. -/
theorem of_map {scalars : β → List Scalar} {visit : Visit α} {value : α} {f : α → β} (injective : ∀ a b, f a = f b → a = b)
    (cuts : Cuts scalars (f <$> visit) (f value) available) : Cuts (fun value => scalars (f value)) visit value available := by
  obtain ⟨image, cut, whole, reads⟩ := cuts
  -- Some load of the bytes shows which value has this image.
  have sample := reads _ rfl (offers_take (encode (scalars (f value))) available)
  obtain ⟨same, _⟩ := Prod.ext_iff.mp sample
  refine ⟨(visit (load ((encode (scalars (f value))).take available).toArray)).1, ?_, fun enough => ?_, fun s loading offers => ?_⟩
  · exact (congrArg scalars same).trans cut
  · exact injective _ _ (same.trans (whole enough))
  · obtain ⟨alike, rest⟩ := Prod.ext_iff.mp (reads s loading offers)
    exact Prod.ext (injective _ _ (alike.trans same.symm)) rest

theorem array {scalars : α → List Scalar} {visit : α → Visit α}
    (item : ∀ value base available, Cuts scalars (visit base) value available) (values bases : Vector α n) :
    Cuts (fun values : Vector α n => values.toList.flatMap scalars) (@Serializer.array _ _ ⟨visit⟩ bases) values available := by
  apply of_map (f := Vector.toList) (fun _ _ => Vector.toList_inj.mp)
  rw [toList_array]
  exact list item values.toList bases.toList (by rw [Vector.length_toList, Vector.length_toList]) available

end Cuts
namespace Writes

theorem word (kind : Integer) (value : kind.Value) : Writes (Serializer.word value) value (encode [.number kind value]) := by
  have bytes : encode [.number kind value] = littleEndian (Word.size kind.Value) (Word.toNat value) := List.append_nil _
  rw [bytes]
  exact word_writes value

theorem boolean (value : Bool) : Writes (Serializer.boolean value) value (encode [.flag value]) := by
  intro s mode
  have byte : encode [.flag value] = [if value then 1 else 0] := by cases value <;> rfl
  rw [Serializer.boolean, bind_apply, byte_writes _ s mode, byte]
  exact Prod.ext (if_neg mode) rfl

theorem join {first : Visit α} {second : Visit β} {x : α} {y : β} {one other : List UInt8} (combine : α → β → γ)
    (begins : first.Writes x one) (ends : second.Writes y other) :
    Writes (do let a ← first; let b ← second; Pure.pure (combine a b)) (combine x y) (one ++ other) := by
  have both : Writes (do let a ← first; let b ← second; Pure.pure (combine a b)) (combine x y) (one ++ (other ++ [])) :=
    begins.bind (ends.bind (.pure (combine x y)))
  rwa [List.append_nil] at both

theorem list {scalars : α → List Scalar} {visit : α → Visit α} (item : ∀ value, (visit value).Writes value (encode (scalars value)))
    (values : List α) : Writes (values.mapM visit) values (encode (values.flatMap scalars)) := by
  induction values with
  | nil => exact pure []
  | cons value values ih =>
    rw [List.mapM_cons, List.flatMap_cons, encode_append]
    exact join List.cons (item value) ih

theorem of_map {visit : Visit α} {value : α} {bytes : List UInt8} {f : α → β} (injective : ∀ a b, f a = f b → a = b)
    (writes : Writes (f <$> visit) (f value) bytes) : Writes visit value bytes := by
  intro s mode
  obtain ⟨image, rest⟩ := Prod.ext_iff.mp (writes s mode)
  exact Prod.ext (injective _ _ image) rest

theorem array {scalars : α → List Scalar} {visit : α → Visit α} (item : ∀ value, (visit value).Writes value (encode (scalars value)))
    (values : Vector α n) : Writes (@Serializer.array _ _ ⟨visit⟩ values) values (encode (values.toList.flatMap scalars)) := by
  apply of_map (f := Vector.toList) (fun _ _ => Vector.toList_inj.mp)
  rw [toList_array]
  exact list item values.toList

end Writes

/-! The visitor of any shape. -/

mutual
theorem visit_writes (shape : Shape) (value : shape.Value) : (shape.visit value).Writes value (encode (shape.scalars value)) := by
  cases shape with
  | integer kind => exact Writes.word kind value
  | boolean => exact Writes.boolean value
  | bytes size =>
    have same : encode (Vector.toList value |>.map Scalar.byte) = Vector.toList value := encode_bytes _
    exact same ▸ bytes_writes value
  | array length item => exact Writes.array (fun value => visit_writes item value) value
  | object fields => exact visitAll_writes fields value
termination_by structural shape

theorem visitAll_writes (fields : List Shape) (values : Shape.Values fields) :
    (Shape.visitAll fields values).Writes values (encode (Shape.scalarsOf fields values)) := by
  cases fields with
  | nil => exact Writes.pure values
  | cons field fields =>
    have both := Writes.join Prod.mk (visit_writes field values.1) (visitAll_writes fields values.2)
    rwa [← encode_append] at both
termination_by structural fields
end

mutual
theorem visit_cuts (shape : Shape) (value base : shape.Value) (available : Nat) :
    Cuts shape.scalars (shape.visit base) value available := by
  cases shape with
  | integer kind => exact Cuts.word kind value base
  | boolean => exact Cuts.boolean value base
  | bytes size => exact Cuts.bytes value base
  | array length item => exact Cuts.array (fun value base available => visit_cuts item value base available) value base
  | object fields => exact visitAll_cuts fields value base available
termination_by structural shape

theorem visitAll_cuts (fields : List Shape) (values bases : Shape.Values fields) (available : Nat) :
    Cuts (Shape.scalarsOf fields) (Shape.visitAll fields bases) values available := by
  cases fields with
  | nil => exact Cuts.nothing rfl
  | cons field fields =>
    have first := visit_cuts field values.1 bases.1 available
    have rest := visitAll_cuts fields values.2 bases.2 (available - sizes (field.scalars values.1))
    exact Cuts.join (fun _ _ => rfl) first rest
termination_by structural fields
end

end Visit

namespace Serializer

/-- What a load yields of some scalars if only so many of their bytes are there. -/
structure Truncated (available : Nat) (saved loaded : List Scalar) : Prop where
  length : loaded.length = saved.length
  /-- What is there in full is read. -/
  whole : ∀ before scalar after, saved = before ++ scalar :: after → sizes before + scalar.size ≤ available →
    loaded[before.length]? = some scalar
  /-- Of a number that is cut off the low bytes are read. -/
  divided : ∀ before kind value after, saved = before ++ .number kind value :: after → sizes before < available →
    available < sizes before + Word.size kind.Value → ∃ read : kind.Value, loaded[before.length]? = some (.number kind read) ∧
      Word.toNat read = Word.toNat value % 256 ^ (available - sizes before)
  /-- What comes later is read as zero. -/
  later : ∀ before scalar after, saved = before ++ scalar :: after → available ≤ sizes before →
    loaded[before.length]? = some scalar.zero

theorem Integer.toNat_ofNat (kind : Integer) {number : Nat} (small : number < 256 ^ Word.size kind.Value) :
    Word.toNat (Word.ofNat number : kind.Value) = number := by
  cases kind with
  | u8 | i8 => exact UInt8.toNat_ofNat'.trans (Nat.mod_eq_of_lt small)
  | u16 | i16 => exact UInt16.toNat_ofNat'.trans (Nat.mod_eq_of_lt small)
  | u32 | i32 => exact UInt32.toNat_ofNat'.trans (Nat.mod_eq_of_lt small)
  | u64 | i64 => exact UInt64.toNat_ofNat'.trans (Nat.mod_eq_of_lt small)

theorem cutAll_at {saved before after : List Scalar} {scalar : Scalar} (listed : saved = before ++ scalar :: after) (available : Nat) :
    (cutAll available saved)[before.length]? = some (scalar.cut (available - sizes before)) := by
  rw [listed, cutAll_append, List.getElem?_append_right (Nat.le_of_eq (length_cutAll before available)), length_cutAll, Nat.sub_self]
  rfl

theorem truncated_cutAll (saved : List Scalar) (available : Nat) : Truncated available saved (cutAll available saved) := by
  constructor
  case length => exact length_cutAll saved available
  case whole =>
    intro before scalar after listed inside
    rw [cutAll_at listed, scalar.cut_of_size_le (by omega)]
  case divided =>
    intro before kind value after listed begun short
    refine ⟨_, cutAll_at listed available, kind.toNat_ofNat ?_⟩
    exact Nat.lt_of_le_of_lt (Nat.mod_le _ _) (Word.toNat_lt value)
  case later =>
    intro before scalar after listed past
    rw [cutAll_at listed, Nat.sub_eq_zero_of_le past, scalar.cut_zero]

theorem visitAll_load (fields : List Shape) (values bases : Shape.Values fields) (available : Nat) :
    ∃ loaded, Shape.scalarsOf fields loaded = cutAll available (Shape.scalarsOf fields values) ∧
      (sizes (Shape.scalarsOf fields values) ≤ available → loaded = values) ∧
      Shape.visitAll fields bases (load ((encode (Shape.scalarsOf fields values)).take available).toArray) =
        (loaded, { load ((encode (Shape.scalarsOf fields values)).take available).toArray with
          cursor := sizes (Shape.scalarsOf fields values)
          overrun := decide (available < sizes (Shape.scalarsOf fields values)) }) := by
  obtain ⟨loaded, cut, whole, reads⟩ := Visit.visitAll_cuts fields values bases available
  refine ⟨loaded, cut, whole, (reads _ rfl (offers_take _ available)).trans ?_⟩
  simp only [passed, load, Nat.zero_add, Bool.false_or]

/-- Whatever fields are saved, measuring counts the bytes, loading them brings the values back, and loading only the first of them reads
everything behind the cut as zero and tells so. -/
theorem fields_transferred (fields : List Shape) (values bases : Shape.Values fields) (available : Nat) :
    ∃ (bytes : Array UInt8) (loaded : Shape.Values fields),
      Shape.visitAll fields values measure = (values, { measure with cursor := bytes.size }) ∧
      Shape.visitAll fields values save = (values, { save with buffer := bytes, cursor := bytes.size }) ∧
      Shape.visitAll fields bases (load bytes) = (values, { load bytes with cursor := bytes.size }) ∧
      Shape.visitAll fields bases (load (bytes.take available)) =
        (loaded, { load (bytes.take available) with cursor := bytes.size, overrun := decide (available < bytes.size) }) ∧
      Truncated available (Shape.scalarsOf fields values) (Shape.scalarsOf fields loaded) := by
  have writes := Visit.visitAll_writes fields values
  have length := length_encode (Shape.scalarsOf fields values)
  obtain ⟨whole, _, same, restores⟩ := visitAll_load fields values bases (sizes (Shape.scalarsOf fields values))
  obtain ⟨loaded, cut, _, stops⟩ := visitAll_load fields values bases available
  cases same (Nat.le_refl _)
  rw [← length] at restores stops
  rw [List.take_length, decide_eq_false (Nat.lt_irrefl _)] at restores
  refine ⟨(encode (Shape.scalarsOf fields values)).toArray, loaded, ?_, ?_, restores, ?_, ?_⟩
  · rw [writes measure (by decide)]
    simp [wrote, measure]
  · rw [writes save (by decide)]
    simp [wrote, save]
  · rw [List.take_toArray]
    exact stops
  · rw [cut]
    exact truncated_cutAll _ available

/-- A word of which only the low byte is there, and a flag behind it. -/
example : Shape.visitAll [.integer .u16, .boolean] ((0xFFFF : UInt16), true, ()) (load #[0x34]) =
    (((0x34 : UInt16), false, ()), { load #[0x34] with cursor := 3, overrun := true }) := by
  rfl

end Serializer
end MultiClock
