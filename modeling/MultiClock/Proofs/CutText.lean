import Mathlib.Data.List.TakeWhile
import MultiClock.Serial.FixedText

/-! Text in fields of fixed width. A field holds the characters that fit whole. If the next one does not, what is there of it reads as one
replacement character. A replacement character that is itself cut off reads as one again, so a text that was read from a field stays as
it is when it is stored once more. -/

namespace MultiClock

namespace Text

/-- Bytes that continue a character. The first of them has bounds of its own. -/
def Continues (low high : UInt8) : List UInt8 → Prop
  | [] => True
  | byte :: rest => low ≤ byte ∧ byte ≤ high ∧ Continues 0x80 0xBF rest

/-- The value with the payload bits of the bytes behind it. -/
def extended (value : Nat) (bytes : List UInt8) : Nat := bytes.foldl (fun value byte => value * 64 + (byte.toNat - 0x80)) value

theorem continued_whole {low high : UInt8} {bytes : List UInt8} (continues : Continues low high bytes) (value : Nat) (rest : List UInt8) :
    continued low high bytes.length value (bytes ++ rest) = (Char.ofNat (extended value bytes), rest) := by
  induction bytes generalizing low high value with
  | nil => rfl
  | cons byte bytes ih =>
    obtain ⟨above, below, continues⟩ := continues
    rw [List.length_cons, List.cons_append, continued, if_pos ⟨above, below⟩, ih continues, extended, extended, List.foldl_cons]

theorem continued_cut {low high : UInt8} {bytes : List UInt8} (continues : Continues low high bytes) {count : Nat}
    (short : bytes.length < count) (value : Nat) : continued low high count value bytes = (replacement, []) := by
  induction bytes generalizing low high value count with
  | nil =>
    cases count with
    | zero => exact absurd short (Nat.not_lt_zero _)
    | succ count => rfl
  | cons byte bytes ih =>
    obtain ⟨above, below, continues⟩ := continues
    cases count with
    | zero => exact absurd short (Nat.not_lt_zero _)
    | succ count =>
      rw [continued, if_pos ⟨above, below⟩]
      exact ih continues (Nat.lt_of_succ_lt_succ short) _

theorem followers_eq {lead : UInt8} {number : Nat} (same : lead.toNat = number) : followers lead =
    if 0xC2 ≤ number ∧ number ≤ 0xDF then some (1, 0x80, 0xBF)
    else if number = 0xE0 then some (2, 0xA0, 0xBF)
    else if number = 0xED then some (2, 0x80, 0x9F)
    else if 0xE1 ≤ number ∧ number ≤ 0xEF then some (2, 0x80, 0xBF)
    else if number = 0xF0 then some (3, 0x90, 0xBF)
    else if 0xF1 ≤ number ∧ number ≤ 0xF3 then some (3, 0x80, 0xBF)
    else if number = 0xF4 then some (3, 0x80, 0x8F)
    else none := by
  subst same
  simp only [followers, UInt8.le_iff_toNat_le, ← UInt8.toNat_inj]
  rfl

theorem toNat_byte (value : Nat) (small : value < 256) : (UInt8.ofNat value).toNat = value := UInt8.toNat_ofNat_of_lt' small

theorem leadBits_byte (count value : Nat) (small : value < 256) : leadBits count (UInt8.ofNat value) = value % Nat.pow 2 (6 - count) :=
  congrArg (· % Nat.pow 2 (6 - count)) (toNat_byte value small)

theorem extended_byte (value bits : Nat) (small : bits < 64) (rest : List UInt8) :
    extended value (UInt8.ofNat (bits + 128) :: rest) = extended (value * 64 + bits) rest := by
  rw [extended, List.foldl_cons, toNat_byte (bits + 128) (by omega), Nat.add_sub_cancel]
  rfl

theorem continues_byte {low high : UInt8} {rest : List UInt8} {value : Nat} (small : value < 256) (above : low.toNat ≤ value)
    (below : value ≤ high.toNat) (continues : Continues 0x80 0xBF rest) : Continues low high (UInt8.ofNat value :: rest) := by
  refine ⟨UInt8.le_iff_toNat_le.mpr ?_, UInt8.le_iff_toNat_le.mpr ?_, continues⟩
  · rwa [toNat_byte value small]
  · rwa [toNat_byte value small]

theorem continues_any {rest : List UInt8} (bits : Nat) (small : bits < 64) (continues : Continues 0x80 0xBF rest) :
    Continues 0x80 0xBF (UInt8.ofNat (bits + 128) :: rest) :=
  continues_byte (by omega) (Nat.le_add_left 128 bits) (Nat.add_le_add_right (Nat.le_of_lt_succ small) 128) continues

theorem wide_byte (value : Nat) (small : value < 256) (above : 0x80 ≤ value) : ¬ UInt8.ofNat value < 0x80 := by
  rw [UInt8.lt_iff_toNat_lt, toNat_byte value small]
  exact Nat.not_lt.mpr above

/-- A leading byte and the bytes behind it stand for the value. -/
structure Leads (lead : UInt8) (rest : List UInt8) (low high : UInt8) (value : Nat) : Prop where
  wide : ¬ lead < 0x80
  followers : followers lead = some (rest.length, low, high)
  continues : Continues low high rest
  value : extended (leadBits rest.length lead) rest = value

section lengths
variable (value : Nat)

theorem leads_two (above : 0x80 ≤ value) (below : value < 0x800) :
    ∃ low high, Leads (UInt8.ofNat (value / 64 % 32 + 192)) [UInt8.ofNat (value % 64 + 128)] low high value := by
  have last : value % 64 < 64 := by omega
  refine ⟨0x80, 0xBF, wide_byte _ (by omega) (by omega), ?_, continues_any _ last trivial, ?_⟩
  · rw [followers_eq (toNat_byte _ (by omega))]
    exact if_pos (by omega)
  · rw [extended_byte _ _ last, leadBits_byte _ _ (by omega)]
    change (value / 64 % 32 + 192) % 32 * 64 + value % 64 = value
    omega

theorem followers_three (above : 0x800 ≤ value) (below : value < 0x10000) (valid : value < 0xD800 ∨ 0xDFFF < value) :
    ∃ low high : UInt8, followers (UInt8.ofNat (value / 4096 % 16 + 224)) = some (2, low, high) ∧
      low.toNat ≤ value / 64 % 64 + 128 ∧ value / 64 % 64 + 128 ≤ high.toNat := by
  rw [followers_eq (toNat_byte _ (by omega))]
  split
  next => omega
  split
  next => exact ⟨_, _, rfl, by grind⟩
  split
  next => exact ⟨_, _, rfl, by grind⟩
  split
  next => exact ⟨_, _, rfl, by grind⟩
  next => omega

theorem leads_three (above : 0x800 ≤ value) (below : value < 0x10000) (valid : value < 0xD800 ∨ 0xDFFF < value) :
    ∃ low high, Leads (UInt8.ofNat (value / 4096 % 16 + 224))
      [UInt8.ofNat (value / 64 % 64 + 128), UInt8.ofNat (value % 64 + 128)] low high value := by
  obtain ⟨low, high, follow, least, most⟩ := followers_three value above below valid
  have second : value / 64 % 64 < 64 := by omega
  have last : value % 64 < 64 := by omega
  refine ⟨low, high, wide_byte _ (by omega) (by omega), follow,
    continues_byte (by omega) least most (continues_any _ last trivial), ?_⟩
  rw [extended_byte _ _ second, extended_byte _ _ last, leadBits_byte _ _ (by omega)]
  change ((value / 4096 % 16 + 224) % 16 * 64 + value / 64 % 64) * 64 + value % 64 = value
  omega

theorem followers_four (above : 0x10000 ≤ value) (below : value < 0x110000) :
    ∃ low high : UInt8, followers (UInt8.ofNat (value / 262144 % 8 + 240)) = some (3, low, high) ∧
      low.toNat ≤ value / 4096 % 64 + 128 ∧ value / 4096 % 64 + 128 ≤ high.toNat := by
  have lead := followers_eq (toNat_byte (value / 262144 % 8 + 240) (by omega))
  rw [if_neg (by omega), if_neg (by omega), if_neg (by omega), if_neg (by omega)] at lead
  rw [lead]
  split
  next => exact ⟨_, _, rfl, by grind⟩
  split
  next => exact ⟨_, _, rfl, by grind⟩
  split
  next => exact ⟨_, _, rfl, by grind⟩
  next => omega

theorem leads_four (above : 0x10000 ≤ value) (below : value < 0x110000) :
    ∃ low high, Leads (UInt8.ofNat (value / 262144 % 8 + 240))
      [UInt8.ofNat (value / 4096 % 64 + 128), UInt8.ofNat (value / 64 % 64 + 128), UInt8.ofNat (value % 64 + 128)] low high value := by
  obtain ⟨low, high, follow, least, most⟩ := followers_four value above below
  have second : value / 4096 % 64 < 64 := by omega
  have third : value / 64 % 64 < 64 := by omega
  have last : value % 64 < 64 := by omega
  refine ⟨low, high, wide_byte _ (by omega) (by omega), follow,
    continues_byte (by omega) least most (continues_any _ third (continues_any _ last trivial)), ?_⟩
  rw [extended_byte _ _ second, extended_byte _ _ third, extended_byte _ _ last, leadBits_byte _ _ (by omega)]
  change (((value / 262144 % 8 + 240) % 8 * 64 + value / 4096 % 64) * 64 + value / 64 % 64) * 64 + value % 64 = value
  omega

end lengths

/-- A character is one byte below 128, or a leading byte with others behind it. -/
theorem utf8EncodeChar_cases (c : Char) : (∃ lead : UInt8, String.utf8EncodeChar c = [lead] ∧ lead < 0x80 ∧ lead.toNat = c.toNat) ∨
    ∃ lead rest low high, String.utf8EncodeChar c = lead :: rest ∧ Leads lead rest low high c.toNat := by
  have valid : c.val.toNat < 0xD800 ∨ 0xDFFF < c.val.toNat ∧ c.val.toNat < 0x110000 := c.valid
  rw [show c.toNat = c.val.toNat from rfl]
  unfold String.utf8EncodeChar
  generalize c.val.toNat = value at valid
  dsimp only
  split
  next narrow =>
    have number := toNat_byte value (by omega)
    refine .inl ⟨_, rfl, UInt8.lt_iff_toNat_lt.mpr ?_, number⟩
    rw [number]
    exact Nat.lt_succ_of_le narrow
  apply Or.inr
  split
  next =>
    obtain ⟨low, high, leads⟩ := leads_two value (by omega) (by omega)
    exact ⟨_, _, low, high, rfl, leads⟩
  split
  next =>
    obtain ⟨low, high, leads⟩ := leads_three value (by omega) (by omega) (by omega)
    exact ⟨_, _, low, high, rfl, leads⟩
  next =>
    obtain ⟨low, high, leads⟩ := leads_four value (by omega) (by omega)
    exact ⟨_, _, low, high, rfl, leads⟩

theorem firstChar_encoded (c : Char) (rest : List UInt8) :
    ∃ lead bytes, String.utf8EncodeChar c = lead :: bytes ∧ firstChar lead (bytes ++ rest) = (c, rest) := by
  obtain ⟨lead, alone, narrow, value⟩ | ⟨lead, bytes, low, high, encoded, leads⟩ := utf8EncodeChar_cases c
  · refine ⟨lead, [], alone, ?_⟩
    rw [firstChar, if_pos narrow, value, Char.ofNat_toNat, List.nil_append]
  · refine ⟨lead, bytes, encoded, ?_⟩
    rw [firstChar, if_neg leads.wide, leads.followers]
    dsimp only
    rw [continued_whole leads.continues, leads.value, Char.ofNat_toNat]

theorem lossyChars_encoded (c : Char) (rest : List UInt8) : lossyChars (String.utf8EncodeChar c ++ rest) = c :: lossyChars rest := by
  obtain ⟨lead, bytes, encoded, first⟩ := firstChar_encoded c rest
  rw [encoded, List.cons_append, lossyChars, first]

theorem Continues.take {low high : UInt8} {bytes : List UInt8} (continues : Continues low high bytes) (count : Nat) :
    Continues low high (bytes.take count) := by
  induction bytes generalizing low high count with
  | nil => exact List.take_nil.symm ▸ trivial
  | cons byte bytes ih =>
    cases count with
    | zero => exact trivial
    | succ count => exact ⟨continues.1, continues.2.1, ih continues.2.2 count⟩

/-- What is left of a character that is cut off reads as one replacement character. -/
theorem lossyChars_cut (c : Char) {count : Nat} (some : 0 < count) (short : count < (String.utf8EncodeChar c).length) :
    lossyChars ((String.utf8EncodeChar c).take count) = [replacement] := by
  obtain ⟨lead, alone, -, -⟩ | ⟨lead, bytes, low, high, encoded, leads⟩ := utf8EncodeChar_cases c
  · rw [alone] at short
    exact absurd short (Nat.not_lt.mpr some)
  · rw [encoded, List.length_cons] at short
    obtain ⟨count, rfl⟩ := Nat.exists_eq_add_one.mpr some
    have fewer : (bytes.take count).length < bytes.length := by
      rw [List.length_take]
      omega
    have cut := continued_cut (leads.continues.take count) fewer
    rw [encoded, List.take_succ_cons, lossyChars, firstChar, if_neg leads.wide, leads.followers]
    dsimp only
    rw [cut, lossyChars]

/-- The characters that so many bytes hold. Where a part of the next one is left, a replacement character stands for that. -/
def fitting (room : Nat) : List Char → List Char
  | [] => []
  | c :: rest => if c.utf8Size ≤ room then c :: fitting (room - c.utf8Size) rest else if room = 0 then [] else [replacement]

theorem lossyChars_take (room : Nat) (chars : List Char) :
    lossyChars ((chars.flatMap String.utf8EncodeChar).take room) = fitting room chars := by
  induction chars generalizing room with
  | nil => rw [List.flatMap_nil, List.take_nil, lossyChars, fitting]
  | cons c chars ih =>
    rw [List.flatMap_cons, List.take_append, fitting, ← String.length_utf8EncodeChar]
    split
    next fits => rw [List.take_of_length_le fits, lossyChars_encoded, ih]
    next cut =>
      have short : room < (String.utf8EncodeChar c).length := Nat.lt_of_not_le cut
      rw [Nat.sub_eq_zero_of_le (Nat.le_of_lt short), List.take_zero, List.append_nil]
      split
      next none => rw [none, List.take_zero, lossyChars]
      next some => exact lossyChars_cut c (Nat.pos_of_ne_zero some) short

theorem fitting_all {room : Nat} {chars : List Char} (enough : (chars.flatMap String.utf8EncodeChar).length ≤ room) :
    fitting room chars = chars := by
  induction chars generalizing room with
  | nil => rfl
  | cons c chars ih =>
    rw [List.flatMap_cons, List.length_append, String.length_utf8EncodeChar] at enough
    rw [fitting, if_pos (Nat.le_trans (Nat.le_add_right _ _) enough), ih (Nat.le_sub_of_add_le' enough)]

/-- A part of a replacement character reads as a replacement character, so nothing changes the second time. -/
theorem fitting_again (room : Nat) (chars : List Char) : fitting room (fitting room chars) = fitting room chars := by
  induction chars generalizing room with
  | nil => rfl
  | cons c chars ih =>
    rw [fitting]
    split
    next fits => rw [fitting, if_pos fits, ih]
    next =>
      split
      next => rfl
      next some =>
        rw [fitting]
        split
        · rfl
        · rfl

theorem mem_fitting {room : Nat} {chars : List Char} {c : Char} (within : c ∈ fitting room chars) : c ∈ chars ∨ c = replacement := by
  induction chars generalizing room with
  | nil => exact absurd within List.not_mem_nil
  | cons first chars ih =>
    rw [fitting] at within
    split at within
    next =>
      cases within with
      | head => exact .inl List.mem_cons_self
      | tail _ within => exact (ih within).imp_left (List.mem_cons_of_mem first)
    next =>
      split at within
      · exact absurd within List.not_mem_nil
      · exact .inr (List.mem_singleton.mp within)

theorem toList_utf8Bytes (text : String) : (utf8Bytes text).toList = text.toList.flatMap String.utf8EncodeChar := by
  have encoded : text.toByteArray = text.toList.utf8Encode := by
    rw [← String.toByteArray_ofList, String.ofList_toList]
  rw [utf8Bytes, String.toUTF8_eq_toByteArray, encoded, List.utf8Encode, List.toList_data_toByteArray]

theorem followers_wide {lead low high : UInt8} {count : Nat} (follow : followers lead = some (count, low, high)) : 0x80 ≤ low := by
  unfold followers at follow
  repeat' split at follow
  all_goals cases follow
  all_goals decide

theorem Continues.wide {low high : UInt8} {bytes : List UInt8} (continues : Continues low high bytes) (above : 0x80 ≤ low) :
    ∀ byte ∈ bytes, 0x80 ≤ byte := by
  induction bytes generalizing low high with
  | nil => exact List.forall_mem_nil _
  | cons byte bytes ih => exact List.forall_mem_cons.mpr ⟨UInt8.le_trans above continues.1, ih continues.2.2 (UInt8.le_refl _)⟩

theorem zero_encoded : String.utf8EncodeChar '\x00' = [0] := rfl

theorem zero_not_encoded {c : Char} (filled : c ≠ '\x00') : 0 ∉ String.utf8EncodeChar c := by
  obtain ⟨lead, alone, -, value⟩ | ⟨lead, rest, low, high, encoded, leads⟩ := utf8EncodeChar_cases c
  · rw [alone, List.mem_singleton]
    intro zero
    subst zero
    exact filled (Char.toNat_inj.mp value.symm)
  · have wide : ∀ byte ∈ rest, 0x80 ≤ byte := leads.continues.wide (followers_wide leads.followers)
    rw [encoded]
    intro within
    cases within with
    | head => exact leads.wide (by decide)
    | tail _ within => exact absurd (wide 0 within) (by decide)

/-- Only the zero character has a zero byte. -/
theorem takeWhile_encoded (chars : List Char) : (chars.flatMap String.utf8EncodeChar).takeWhile (· != 0) =
    (chars.takeWhile (· != '\x00')).flatMap String.utf8EncodeChar := by
  induction chars with
  | nil => rfl
  | cons c chars ih =>
    by_cases zero : c = '\x00'
    · rw [zero, List.flatMap_cons, zero_encoded]
      rfl
    · have filled (byte : UInt8) (within : byte ∈ String.utf8EncodeChar c) : (byte != 0) = true :=
        bne_iff_ne.mpr fun none => zero_not_encoded zero (none ▸ within)
      have kept : (c :: chars).takeWhile (· != '\x00') = c :: chars.takeWhile (· != '\x00') :=
        List.takeWhile_cons_of_pos (bne_iff_ne.mpr zero)
      rw [kept, List.flatMap_cons, List.flatMap_cons, List.takeWhile_append_of_pos filled, ih]

end Text

namespace FixedText

open Text

theorem toList_encode (width : Nat) (text : String) : (encode width text).toList =
    (utf8Bytes text).toList.take width ++ List.replicate (width - (utf8Bytes text).size) 0 := by
  refine List.ext_getElem? fun position => ?_
  rw [encode, Vector.toList_ofFn, List.getElem?_ofFn, List.getElem?_append, List.getElem?_take, List.getElem?_replicate, List.length_take,
    Array.length_toList, Array.getElem?_toList]
  simp only [Array.getD_eq_getD_getElem?]
  grind

theorem takeWhile_padded (bytes : List UInt8) (count : Nat) :
    (bytes ++ List.replicate count 0).takeWhile (· != 0) = bytes.takeWhile (· != 0) := by
  have padding : (List.replicate count (0 : UInt8)).takeWhile (· != 0) = [] := by simp
  rw [List.takeWhile_append, padding, List.append_nil]
  split
  next whole => exact ((List.takeWhile_prefix _).eq_of_length whole).symm
  next => rfl

theorem toList_decode (width : Nat) (text : String) :
    (decode (encode width text).toArray).toList = fitting width (text.toList.takeWhile (· != '\x00')) := by
  have bytes : (encode width text).toArray.toList.takeWhile (· != 0) =
      ((text.toList.takeWhile (· != '\x00')).flatMap String.utf8EncodeChar).take width := by
    rw [show (encode width text).toArray.toList = (encode width text).toList from rfl, toList_encode, takeWhile_padded, ← List.take_takeWhile,
      toList_utf8Bytes, takeWhile_encoded]
  rw [decode, bytes, lossy, String.toList_ofList, lossyChars_take]

theorem zero_not_decoded (width : Nat) (text : String) : '\x00' ∉ (decode (encode width text).toArray).toList := by
  rw [toList_decode]
  intro zero
  obtain within | same := mem_fitting zero
  · exact absurd (List.mem_takeWhile_imp within) (by decide)
  · exact absurd same (by decide)

theorem takeWhile_all {chars : List Char} (filled : '\x00' ∉ chars) : chars.takeWhile (· != '\x00') = chars := by
  apply List.takeWhile_eq_self_iff.mpr
  intro c within
  exact bne_iff_ne.mpr fun zero => filled (zero ▸ within)

/-- A text without zero characters comes back if it fits. Any text comes back without zero characters and, where it was cut off, with a
replacement character, and then stays as it is. -/
theorem text_kept (width : Nat) (text : String) :
    ('\x00' ∉ text.toList ∧ text.utf8ByteSize ≤ width → decode (encode width text).toArray = text) ∧
      '\x00' ∉ (decode (encode width text).toArray).toList ∧
      decode (encode width (decode (encode width text).toArray)).toArray = decode (encode width text).toArray := by
  refine ⟨fun fits => ?_, zero_not_decoded width text, ?_⟩
  · obtain ⟨filled, short⟩ := fits
    have enough : (text.toList.flatMap String.utf8EncodeChar).length ≤ width := by
      rwa [← toList_utf8Bytes]
    apply String.toList_inj.mp
    rw [toList_decode, takeWhile_all filled, fitting_all enough]
  · apply String.toList_inj.mp
    rw [toList_decode, takeWhile_all (zero_not_decoded width text), toList_decode, fitting_again]

/-- A text that fills its field. -/
theorem text_kept_filled : ('\x00' ∉ "é日".toList ∧ "é日".utf8ByteSize ≤ 5) ∧ decode (encode 5 "é日").toArray = "é日" := by
  have fits : '\x00' ∉ "é日".toList ∧ "é日".utf8ByteSize ≤ 5 := by decide
  exact ⟨fits, (text_kept 5 "é日").1 fits⟩

/-- Four bytes hold a part of the second character. -/
example : (decode (encode 4 "é日").toArray).toList = ['é', replacement] := by
  rw [toList_decode]
  rfl

end FixedText
end MultiClock
