import MultiClock.Cheat
import MultiClock.Proofs.Numerals

/-! The written form of cheats. A text is a cheat exactly when it falls into an address, perhaps a byte to compare with, and a value,
each a hexadecimal numeral between blanks. Otherwise the first of them that is missing or wrong is reported. What is displayed reads
back as the same cheat. The texts of cheats and the texts with faults are described apart from the reader: it does what they say, and
as every text is of one of the two kinds, it does nothing else. -/

namespace MultiClock.Cheat

open Text

structure Pieces where
  address : List Char
  compare : Option (List Char)
  value : List Char

/-- The first equals sign ends the target, and the first question mark in the target ends its address. -/
inductive Divides : List Char → Pieces → Prop
  | plain (address value : List Char) : '=' ∉ address → '?' ∉ address → Divides (address ++ '=' :: value) ⟨address, none, value⟩
  | guarded (address compare value : List Char) : '=' ∉ address ++ '?' :: compare → '?' ∉ address →
    Divides (address ++ '?' :: compare ++ '=' :: value) ⟨address, some compare, value⟩

/-- Between blanks the piece is a hexadecimal numeral of this number. -/
def Holds (limit : Nat) (piece : List Char) (number : Nat) : Prop :=
  ∃ core, Trims piece core ∧ Numeral 16 core number ∧ number ≤ limit

def HoldsAddress (piece : List Char) (address : UInt16) : Prop := Holds 0xFFFF piece address.toNat

def HoldsByte (piece : List Char) (byte : UInt8) : Prop := Holds 0xFF piece byte.toNat

/-- Between blanks the piece is no hexadecimal numeral of any number within the limit. -/
def Lacks (limit : Nat) (piece : List Char) (cause : NumeralError) : Prop :=
  ∃ core, Trims piece core ∧ Refused 16 limit core cause

/-- The text is one of those that stand for the cheat. -/
def Spells (text : List Char) (cheat : Cheat) : Prop :=
  ∃ pieces, Divides text pieces ∧ HoldsAddress pieces.address cheat.address ∧
    Option.Rel HoldsByte pieces.compare cheat.compare ∧ HoldsByte pieces.value cheat.value

/-- The first fault of a text in the order equals sign, address, compared byte, value. -/
inductive FirstFault (text : String) : Problem → Prop
  | missingValue : '=' ∉ text.toList → FirstFault text (.missingValue text)
  | address (pieces : Pieces) (cause : NumeralError) : Divides text.toList pieces → Lacks 0xFFFF pieces.address cause →
    FirstFault text (.badAddress (String.ofList pieces.address) text cause)
  | compare (pieces : Pieces) (address : UInt16) (compare : List Char) (cause : NumeralError) : Divides text.toList pieces →
    HoldsAddress pieces.address address → pieces.compare = some compare → Lacks 0xFF compare cause →
    FirstFault text (.badByte (String.ofList compare) text cause)
  | value (pieces : Pieces) (address : UInt16) (byte : Option UInt8) (cause : NumeralError) : Divides text.toList pieces →
    HoldsAddress pieces.address address → Option.Rel HoldsByte pieces.compare byte → Lacks 0xFF pieces.value cause →
    FirstFault text (.badByte (String.ofList pieces.value) text cause)

variable {limit number : Nat} {text : String} {piece : List Char} {cause : NumeralError} {problem : Problem} {pieces : Pieces}
  {cheat : Cheat}

theorem holds_iff : Holds limit piece number ↔ readNumeral 16 limit (trimmed piece) = .ok number := by
  simp [Holds, trims_iff, readNumeral_eq_ok (Nat.le_refl 16)]

theorem lacks_iff : Lacks limit piece cause ↔ readNumeral 16 limit (trimmed piece) = .error cause := by
  simp [Lacks, trims_iff, readNumeral_eq_error (Nat.le_refl 16)]

/-- A piece lacks a number for some cause exactly when it holds none. -/
theorem exists_lacks_iff : (∃ cause, Lacks limit piece cause) ↔ ∀ number, ¬ Holds limit piece number := by
  simp only [holds_iff, lacks_iff]
  cases readNumeral 16 limit (trimmed piece) with
  | ok number => simp
  | error cause => simp

theorem holds_or_lacks (limit : Nat) (piece : List Char) : (∃ number, Holds limit piece number) ∨ ∃ cause, Lacks limit piece cause :=
  (Classical.em _).imp_right fun nothing => exists_lacks_iff.mpr (not_exists.mp nothing)

theorem address_or_lacks (piece : List Char) : (∃ address, HoldsAddress piece address) ∨ ∃ cause, Lacks 0xFFFF piece cause := by
  refine (holds_or_lacks 0xFFFF piece).imp_left fun found => ?_
  obtain ⟨number, core, trims, numeral, within⟩ := found
  have exact_word : (UInt16.ofNat number).toNat = number := UInt16.toNat_ofNat_of_lt (by simp [UInt16.size]; omega)
  exact ⟨UInt16.ofNat number, core, trims, exact_word.symm ▸ numeral, exact_word.symm ▸ within⟩

theorem byte_or_lacks (piece : List Char) : (∃ byte, HoldsByte piece byte) ∨ ∃ cause, Lacks 0xFF piece cause := by
  refine (holds_or_lacks 0xFF piece).imp_left fun found => ?_
  obtain ⟨number, core, trims, numeral, within⟩ := found
  have exact_byte : (UInt8.ofNat number).toNat = number := UInt8.toNat_ofNat_of_lt (by simp [UInt8.size]; omega)
  exact ⟨UInt8.ofNat number, core, trims, exact_byte.symm ▸ numeral, exact_byte.symm ▸ within⟩

theorem compare_or_lacks (piece : Option (List Char)) : (∃ byte, Option.Rel HoldsByte piece byte) ∨
    ∃ compare cause, piece = some compare ∧ Lacks 0xFF compare cause := by
  cases piece with
  | none => exact .inl ⟨none, .none⟩
  | some compare =>
    rcases byte_or_lacks compare with ⟨byte, holds⟩ | ⟨cause, lacks⟩
    · exact .inl ⟨some byte, .some holds⟩
    · exact .inr ⟨compare, cause, rfl, lacks⟩

theorem parseAddress_holds {address : UInt16} (holds : HoldsAddress piece address) : parseAddress text piece = .ok address := by
  rw [parseAddress, holds_iff.mp holds]
  simp

theorem parseAddress_lacks (lacks : Lacks 0xFFFF piece cause) :
    parseAddress text piece = .error (.badAddress (String.ofList piece) text cause) := by
  rw [parseAddress, lacks_iff.mp lacks]

theorem parseByte_holds {byte : UInt8} (holds : HoldsByte piece byte) : parseByte text piece = .ok byte := by
  rw [parseByte, holds_iff.mp holds]
  simp

theorem parseByte_lacks (lacks : Lacks 0xFF piece cause) : parseByte text piece = .error (.badByte (String.ofList piece) text cause) := by
  rw [parseByte, lacks_iff.mp lacks]

theorem parseCompare_holds {piece : Option (List Char)} {byte : Option UInt8} (holds : Option.Rel HoldsByte piece byte) :
    piece.mapM (parseByte text) = .ok byte := by
  cases holds with
  | none => rfl
  | some holds => rw [Option.mapM_some, parseByte_holds holds]; rfl

/-- Reading of the pieces of a text, the address first. -/
def parsePieces (text : String) (pieces : Pieces) : Except Problem Cheat := do
  let address ← parseAddress text pieces.address
  let compare ← pieces.compare.mapM (parseByte text)
  return { address, compare, value := ← parseByte text pieces.value }

theorem exists_divides {written : List Char} (equals : '=' ∈ written) : ∃ pieces, Divides written pieces := by
  obtain ⟨target, value, rfl, target_plain⟩ := List.eq_append_cons_of_mem equals
  by_cases guarded : '?' ∈ target
  · obtain ⟨address, compare, rfl, address_plain⟩ := List.eq_append_cons_of_mem guarded
    exact ⟨_, .guarded address compare value target_plain address_plain⟩
  · exact ⟨_, .plain target value target_plain guarded⟩

theorem parse_missing (missing : '=' ∉ text.toList) : parse text = .error (.missingValue text) := by
  rw [parse, splitOnce_eq_none.mpr missing]
  rfl

theorem parse_divides (divides : Divides text.toList pieces) : parse text = parsePieces text pieces := by
  rw [parse]
  generalize text.toList = written at divides
  cases divides with
  | plain address value no_equals no_question =>
    rw [splitOnce_append no_equals]
    simp [parseTarget, splitOnce_eq_none.mpr no_question, parsePieces]
  | guarded address compare value no_equals no_question =>
    rw [splitOnce_append no_equals]
    simp [parseTarget, splitOnce_append no_question, parsePieces]

theorem parse_spells (spells : Spells text.toList cheat) : parse text = .ok cheat := by
  obtain ⟨pieces, divides, address, compare, value⟩ := spells
  rw [parse_divides divides, parsePieces, parseAddress_holds address, parseCompare_holds compare, parseByte_holds value]
  rfl

theorem parse_faulty (fault : FirstFault text problem) : parse text = .error problem := by
  cases fault with
  | missingValue missing => exact parse_missing missing
  | address pieces cause divides lacks =>
    rw [parse_divides divides, parsePieces, parseAddress_lacks lacks]
    rfl
  | compare pieces address compare cause divides holds guarded lacks =>
    rw [parse_divides divides, parsePieces, parseAddress_holds holds, guarded, Option.mapM_some, parseByte_lacks lacks]
    rfl
  | value pieces address byte cause divides holds compared lacks =>
    rw [parse_divides divides, parsePieces, parseAddress_holds holds, parseCompare_holds compared, parseByte_lacks lacks]
    rfl

/-- Every text spells a cheat or has a first fault. The pieces are taken in the order in which faults are reported. -/
theorem spells_or_faulty (text : String) : (∃ cheat, Spells text.toList cheat) ∨ ∃ problem, FirstFault text problem := by
  by_cases equals : '=' ∈ text.toList
  · obtain ⟨pieces, divides⟩ := exists_divides equals
    rcases address_or_lacks pieces.address with ⟨address, address_holds⟩ | ⟨cause, lacks⟩
    · rcases compare_or_lacks pieces.compare with ⟨byte, compare_holds⟩ | ⟨compare, cause, guarded, lacks⟩
      · rcases byte_or_lacks pieces.value with ⟨value, value_holds⟩ | ⟨cause, lacks⟩
        · exact .inl ⟨⟨address, byte, value⟩, pieces, divides, address_holds, compare_holds, value_holds⟩
        · exact .inr ⟨_, .value pieces address byte cause divides address_holds compare_holds lacks⟩
      · exact .inr ⟨_, .compare pieces address compare cause divides address_holds guarded lacks⟩
    · exact .inr ⟨_, .address pieces cause divides lacks⟩
  · exact .inr ⟨_, .missingValue equals⟩

theorem parse_eq_ok : parse text = .ok cheat ↔ Spells text.toList cheat := by
  refine ⟨fun accepted => ?_, parse_spells⟩
  rcases spells_or_faulty text with ⟨other, spells⟩ | ⟨problem, fault⟩
  · exact Except.ok.inj (accepted.symm.trans (parse_spells spells)) ▸ spells
  · exact absurd (accepted.symm.trans (parse_faulty fault)) nofun

theorem parse_eq_error : parse text = .error problem ↔ FirstFault text problem := by
  refine ⟨fun refused => ?_, parse_faulty⟩
  rcases spells_or_faulty text with ⟨cheat, spells⟩ | ⟨other, fault⟩
  · exact absurd (refused.symm.trans (parse_spells spells)) nofun
  · exact Except.error.inj (refused.symm.trans (parse_faulty fault)) ▸ fault

theorem holds_hexDigits (width : Nat) (filled : 0 < width) (fits : number < 16 ^ width) (within : number ≤ limit) :
    Holds limit (hexDigits true width number) number := by
  have all_digits := digits_hexDigits true width number
  rw [Nat.mod_eq_of_lt fits] at all_digits
  have some_digit : hexDigits true width number ≠ [] := by
    cases width with
    | zero => exact absurd filled (Nat.lt_irrefl 0)
    | succ width => simp [hexDigits]
  exact ⟨_, all_digits.trims (Nat.le_refl 16), all_digits.numeral some_digit, within⟩

theorem spells_render (cheat : Cheat) : Spells cheat.render.toList cheat := by
  obtain ⟨address, compare, value⟩ := cheat
  have address_holds : HoldsAddress (hexDigits true 4 address.toNat) address := by
    have small := address.toNat_lt
    exact holds_hexDigits 4 (by decide) (by omega) (by omega)
  have byte_holds (byte : UInt8) : HoldsByte (hexDigits true 2 byte.toNat) byte := by
    have small := byte.toNat_lt
    exact holds_hexDigits 2 (by decide) (by omega) (by omega)
  have absent (width number : Nat) {c : Char} (no_value : digitValue c = none) : c ∉ hexDigits true width number :=
    (digits_hexDigits true width number).not_mem (Nat.le_refl 16) no_value
  cases compare with
  | none =>
    have written : (render ⟨address, none, value⟩).toList = hexDigits true 4 address.toNat ++ '=' :: hexDigits true 2 value.toNat := by
      simp [render, hexUpper]
    rw [written]
    exact ⟨_, .plain _ _ (absent 4 _ (by decide)) (absent 4 _ (by decide)), address_holds, .none, byte_holds value⟩
  | some compare =>
    have written : (render ⟨address, some compare, value⟩).toList =
        hexDigits true 4 address.toNat ++ '?' :: hexDigits true 2 compare.toNat ++ '=' :: hexDigits true 2 value.toNat := by
      simp [render, hexUpper]
    have no_equals : '=' ∉ hexDigits true 4 address.toNat ++ '?' :: hexDigits true 2 compare.toNat := by
      have in_address := absent 4 address.toNat (c := '=') (by decide)
      have in_compare := absent 2 compare.toNat (c := '=') (by decide)
      simp [in_address, in_compare]
    rw [written]
    exact ⟨_, .guarded _ _ _ no_equals (absent 4 _ (by decide)), address_holds, .some (byte_holds compare), byte_holds value⟩

/-- The written form of cheats: which texts are accepted and as what, which fault is reported of every other text, and that what is
displayed reads back. -/
theorem parse_grammar (text : String) :
    (∀ cheat, parse text = .ok cheat ↔ Spells text.toList cheat) ∧
    (∀ problem, parse text = .error problem ↔ FirstFault text problem) ∧
    (∀ cheat, parse (render cheat) = .ok cheat) ∧ (do parse (render (← parse text))) = parse text := by
  have displayed (cheat : Cheat) : parse (render cheat) = .ok cheat := parse_spells (spells_render cheat)
  refine ⟨fun _ => parse_eq_ok, fun _ => parse_eq_error, displayed, ?_⟩
  cases parse text with
  | ok cheat => exact displayed cheat
  | error problem => rfl

example : parse " 7e0 ?\t+0010=FF\n" = .ok ⟨0x7E0, some 0x10, 0xFF⟩ := rfl

end MultiClock.Cheat
