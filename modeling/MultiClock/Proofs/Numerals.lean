import Mathlib.Data.List.Forall2
import Mathlib.Data.Nat.Digits.Defs
import MultiClock.Proofs.PiecesOfText
import MultiClock.Text.Numeral

/-! Numbers as they are written. Reading is told by the digits and their places: a text is read as a number exactly when it is a
numeral of that number and the number is within the limit. Written numbers are numerals of themselves. -/

namespace MultiClock.Text

/-- The value of a digit. A letter is the same digit in either case. -/
def Digit (radix : Nat) (c : Char) (value : Nat) : Prop := value < radix ∧ c.toLower = value.digitChar

/-- Digits, the most significant first, and the number that they make by their places. -/
def Digits (radix : Nat) (digits : List Char) (number : Nat) : Prop :=
  ∃ values, List.Forall₂ (Digit radix) digits values ∧ number = Nat.ofDigits radix values.reverse

/-- At least one digit, after a plus sign or not. -/
def Numeral (radix : Nat) (text : List Char) (number : Nat) : Prop :=
  ∃ sign digits, text = sign ++ digits ∧ (sign = [] ∨ sign = ['+']) ∧ digits ≠ [] ∧ Digits radix digits number

variable {radix limit number value digit : Nat} {c : Char} {text digits rest : List Char} {cause other : NumeralError}

/-- The ASCII characters are few enough to be tried out. None of the others is a digit or a letter with a case. -/
private theorem of_ascii {holds : Char → Prop} (ascii : ∀ code < 128, holds (Char.ofNat code))
    (beyond : ∀ c, c.toLower = c → digitValue c = none → holds c) (c : Char) : holds c := by
  by_cases known : c.toNat < 128
  · exact Char.ofNat_toNat c ▸ ascii c.toNat known
  · have above (last : Char) (ascii : last.toNat < 128) : ¬ c ≤ last := fun up_to =>
      known (Nat.lt_of_le_of_lt (UInt32.le_iff_toNat_le.mp up_to) ascii)
    have no_digit : ¬ c.isDigit := by
      rw [Char.isDigit, Bool.and_eq_true, decide_eq_true_eq, decide_eq_true_eq]
      exact fun within => above '9' (by decide) within.2
    have no_small : ¬ ('a' ≤ c ∧ c ≤ 'z') := fun within => above 'z' (by decide) within.2
    have no_capital : ¬ ('A' ≤ c ∧ c ≤ 'Z') := fun within => above 'Z' (by decide) within.2
    exact beyond c (dif_neg no_capital) (by rw [digitValue, if_neg no_digit, if_neg no_small, if_neg no_capital])

theorem toLower_toLower (c : Char) : c.toLower.toLower = c.toLower :=
  of_ascii (by decide +kernel) (fun _ caseless _ => congrArg Char.toLower caseless) c

theorem eq_plus_of_toLower : c.toLower = '+' → c = '+' :=
  of_ascii (by decide +kernel) (fun _ caseless _ lower => caseless.symm.trans lower) c

theorem digitValue_of_isBlank : isBlank c → digitValue c = none :=
  @of_ascii (fun c => isBlank c → digitValue c = none) (by decide +kernel) (fun _ _ no_value _ => no_value) c

private theorem digitValue_digitChar : ∀ value < 16, digitValue value.digitChar = some value := by
  decide

/-- The first sixteen values belong to the digits 0 to 9 and to the letters A to F. -/
theorem digitValue_eq_some (small : value < 16) : digitValue c = some value ↔ c.toLower = value.digitChar := by
  refine @of_ascii (fun c => ∀ value < 16, digitValue c = some value ↔ c.toLower = value.digitChar) (by decide +kernel)
    (fun c caseless no_value value small => ?_) c value small
  rw [no_value, caseless]
  refine ⟨nofun, fun same => ?_⟩
  rw [same, digitValue_digitChar value small] at no_value
  exact no_value.symm

theorem digitIn_eq_some (known : radix ≤ 16) : digitIn radix c = some digit ↔ Digit radix c digit := by
  rw [digitIn, Option.filter_eq_some_iff, Digit, decide_eq_true_eq, and_comm]
  exact and_congr_right fun small => digitValue_eq_some (by omega)

theorem Digit.unique (known : radix ≤ 16) (one : Digit radix c value) (other : Digit radix c digit) : value = digit :=
  Option.some.inj (((digitIn_eq_some known).mpr one).symm.trans ((digitIn_eq_some known).mpr other))

theorem Digit.digitValue (known : radix ≤ 16) (is_digit : Digit radix c digit) : digitValue c = some digit :=
  (digitValue_eq_some (by have := is_digit.1; omega)).mpr is_digit.2

theorem digits_nil : Digits radix [] number ↔ number = 0 := by
  simp [Digits, List.forall₂_nil_left_iff]

/-- The first digit has the highest place. -/
theorem digits_cons : Digits radix (c :: rest) number ↔
    ∃ digit tail, Digit radix c digit ∧ Digits radix rest tail ∧ number = digit * radix ^ rest.length + tail := by
  have places {digit : Nat} {others : List Nat} (further : List.Forall₂ (Digit radix) rest others) :
      Nat.ofDigits radix (digit :: others).reverse = digit * radix ^ rest.length + Nat.ofDigits radix others.reverse := by
    rw [List.reverse_cons, Nat.ofDigits_append, Nat.ofDigits_singleton, List.length_reverse, further.length_eq]
    ring
  constructor
  · rintro ⟨values, all_digits, rfl⟩
    obtain ⟨digit, others, first, further, rfl⟩ := List.forall₂_cons_left_iff.mp all_digits
    exact ⟨digit, _, first, ⟨others, further, rfl⟩, places further⟩
  · rintro ⟨digit, _, first, ⟨others, further, rfl⟩, rfl⟩
    exact ⟨digit :: others, .cons first further, (places further).symm⟩

/-- The last digit has the lowest place. -/
theorem Digits.concat (before : Digits radix digits number) (last : Digit radix c digit) :
    Digits radix (digits ++ [c]) (number * radix + digit) := by
  obtain ⟨values, all_digits, rfl⟩ := before
  refine ⟨values ++ [digit], List.rel_append all_digits (.cons last .nil), ?_⟩
  rw [List.reverse_append, List.reverse_singleton, List.singleton_append, Nat.ofDigits_cons]
  ring

theorem Digits.not_mem (known : radix ≤ 16) (all_digits : Digits radix digits number) (no_value : digitValue c = none) :
    c ∉ digits := by
  intro within
  obtain ⟨values, each, -⟩ := all_digits
  induction each with
  | nil => exact absurd within List.not_mem_nil
  | cons first _ hyp =>
    rcases List.mem_cons.mp within with rfl | later
    · exact absurd (no_value.symm.trans (first.digitValue known)) nofun
    · exact hyp later

theorem Digits.trims (known : radix ≤ 16) (all_digits : Digits radix digits number) : Trims digits digits :=
  trims_of_no_blank fun _ within blank => all_digits.not_mem known (digitValue_of_isBlank blank) within

/-- The number so far with digits put behind it. -/
def Extends (radix value : Nat) (digits : List Char) (number : Nat) : Prop :=
  ∃ tail, Digits radix digits tail ∧ number = value * radix ^ digits.length + tail

theorem extends_cons (known : radix ≤ 16) (first : Digit radix c digit) :
    Extends radix value (c :: rest) number ↔ Extends radix (value * radix + digit) rest number := by
  have places (tail : Nat) : value * radix ^ (c :: rest).length + (digit * radix ^ rest.length + tail) =
      (value * radix + digit) * radix ^ rest.length + tail := by
    rw [List.length_cons]
    ring
  constructor
  · rintro ⟨_, all_digits, rfl⟩
    obtain ⟨other, tail, is_other, further, rfl⟩ := digits_cons.mp all_digits
    obtain rfl := is_other.unique known first
    exact ⟨tail, further, places tail⟩
  · rintro ⟨tail, further, rfl⟩
    exact ⟨_, digits_cons.mpr ⟨digit, tail, first, further, rfl⟩, (places tail).symm⟩

theorem extends_nil : Extends radix value [] number ↔ number = value := by
  simp [Extends, digits_nil]

/-- A number does not become smaller by digits behind it. -/
theorem Extends.le (positive : 0 < radix) (further : Extends radix value digits number) : value ≤ number := by
  obtain ⟨tail, _, rfl⟩ := further
  have := Nat.le_mul_of_pos_right value (Nat.pow_pos (n := digits.length) positive)
  omega

/-- Why a character cannot be put behind a number. -/
inductive Refuses (radix limit number : Nat) (c : Char) : NumeralError → Prop
  | strange : (∀ digit, ¬ Digit radix c digit) → Refuses radix limit number c .invalidDigit
  | large (digit : Nat) : Digit radix c digit → limit < number * radix + digit → Refuses radix limit number c .tooLarge

/-- The first character that cannot be put behind the number so far and the digits before it. -/
def Stops (radix limit value : Nat) (text : List Char) (cause : NumeralError) : Prop :=
  ∃ good c rest number, text = good ++ c :: rest ∧ Extends radix value good number ∧ number ≤ limit ∧
    Refuses radix limit number c cause

theorem Refuses.unique (refused : Refuses radix limit value c cause) (again : Refuses radix limit value c other) : cause = other := by
  cases refused with
  | strange no_digit =>
    cases again with
    | strange => rfl
    | large digit is_digit => exact absurd is_digit (no_digit digit)
  | large digit is_digit =>
    cases again with
    | strange no_digit => exact absurd is_digit (no_digit digit)
    | large => rfl

/-- A character that is refused starts no digits that would make up a number within the limit. -/
theorem Refuses.lt_of_extends (known : radix ≤ 16) (refused : Refuses radix limit value c cause)
    (further : Extends radix value (c :: rest) number) : limit < number := by
  cases refused with
  | strange no_digit =>
    obtain ⟨_, all_digits, _⟩ := further
    obtain ⟨digit, _, is_digit, _⟩ := digits_cons.mp all_digits
    exact absurd is_digit (no_digit digit)
  | large digit is_digit large =>
    exact large.trans_le (((extends_cons known is_digit).mp further).le (Nat.zero_lt_of_lt is_digit.1))

theorem Refuses.stops_iff (known : radix ≤ 16) (refused : Refuses radix limit value c cause) (low : value ≤ limit) :
    Stops radix limit value (c :: rest) other ↔ cause = other := by
  constructor
  · rintro ⟨good, b, after, number, parts, further, within, again⟩
    cases good with
    | nil =>
      obtain ⟨rfl, rfl⟩ := List.cons.inj parts
      obtain rfl := extends_nil.mp further
      exact refused.unique again
    | cons first good =>
      obtain ⟨rfl, _⟩ := List.cons.inj parts
      exact absurd (refused.lt_of_extends known further) (Nat.not_lt_of_le within)
  · rintro rfl
    exact ⟨[], c, rest, value, rfl, extends_nil.mpr rfl, low, refused⟩

theorem stops_cons (known : radix ≤ 16) (first : Digit radix c digit) (small : value * radix + digit ≤ limit) :
    Stops radix limit value (c :: rest) cause ↔ Stops radix limit (value * radix + digit) rest cause := by
  constructor
  · rintro ⟨good, b, after, number, parts, further, within, refused⟩
    cases good with
    | nil =>
      -- The digit itself would be the one that is refused.
      obtain ⟨rfl, rfl⟩ := List.cons.inj parts
      obtain rfl := extends_nil.mp further
      have alone : Extends radix number [c] (number * radix + digit) := (extends_cons known first).mpr (extends_nil.mpr rfl)
      exact absurd (refused.lt_of_extends known alone) (Nat.not_lt_of_le small)
    | cons b good =>
      obtain ⟨rfl, rfl⟩ := List.cons.inj parts
      exact ⟨good, _, after, number, rfl, (extends_cons known first).mp further, within, refused⟩
  · rintro ⟨good, b, after, number, rfl, further, within, refused⟩
    exact ⟨c :: good, b, after, number, rfl, (extends_cons known first).mpr further, within, refused⟩

/-- One step of reading: a digit is taken in while the number stays within the limit. -/
theorem readDigits_step (known : radix ≤ 16) (value : Nat) (c : Char) (rest : List Char) :
    (∃ digit, Digit radix c digit ∧ value * radix + digit ≤ limit ∧
      readDigits radix limit value (c :: rest) = readDigits radix limit (value * radix + digit) rest) ∨
    ∃ cause, Refuses radix limit value c cause ∧ readDigits radix limit value (c :: rest) = .error cause := by
  rw [readDigits]
  split
  · next read =>
    have no_digit (digit : Nat) (is_digit : Digit radix c digit) : False := by simp [(digitIn_eq_some known).mpr is_digit] at read
    exact .inr ⟨_, .strange no_digit, rfl⟩
  · next digit read =>
    have is_digit := (digitIn_eq_some known).mp read
    split
    · next small => exact .inl ⟨digit, is_digit, small, rfl⟩
    · next large => exact .inr ⟨_, .large digit is_digit (Nat.lt_of_not_le large), rfl⟩

/-- Every digit is checked against the limit, which is a check of the whole number: it never becomes smaller. -/
theorem readDigits_eq_ok (known : radix ≤ 16) (low : value ≤ limit) :
    readDigits radix limit value text = .ok number ↔ Extends radix value text number ∧ number ≤ limit := by
  induction text generalizing value with
  | nil =>
    rw [readDigits, Except.ok.injEq, extends_nil]
    exact ⟨fun same => ⟨same.symm, same ▸ low⟩, fun within => within.1.symm⟩
  | cons c rest hyp =>
    rcases readDigits_step known value c rest with ⟨digit, first, small, taken⟩ | ⟨cause, refused, stopped⟩
    · rw [taken, hyp small, extends_cons known first]
    · -- No digits from here on could make up a number within the limit.
      rw [stopped]
      refine ⟨nofun, ?_⟩
      rintro ⟨further, within⟩
      exact absurd (refused.lt_of_extends known further) (Nat.not_lt_of_le within)

theorem readDigits_eq_error (known : radix ≤ 16) (low : value ≤ limit) :
    readDigits radix limit value text = .error cause ↔ Stops radix limit value text cause := by
  induction text generalizing value with
  | nil => simp [readDigits, Stops]
  | cons c rest hyp =>
    rcases readDigits_step known value c rest with ⟨digit, first, small, taken⟩ | ⟨_, refused, stopped⟩
    · rw [taken, hyp small, stops_cons known first small]
    · rw [stopped, refused.stops_iff known low, Except.error.injEq]

theorem readDigits_zero (known : radix ≤ 16) :
    readDigits radix limit 0 text = .ok number ↔ Digits radix text number ∧ number ≤ limit := by
  rw [readDigits_eq_ok known (Nat.zero_le limit)]
  simp [Extends]

theorem not_numeral_nil : ¬ Numeral radix [] number := by
  rintro ⟨sign, digits, parts, _, filled, _⟩
  exact filled (List.append_eq_nil_iff.mp parts.symm).2

theorem numeral_plus (known : radix ≤ 16) : Numeral radix ('+' :: digits) number ↔ digits ≠ [] ∧ Digits radix digits number := by
  constructor
  · rintro ⟨_, others, parts, rfl | rfl, filled, all_digits⟩
    · rw [List.nil_append] at parts
      exact absurd (parts ▸ List.mem_cons_self) (all_digits.not_mem known (c := '+') (by decide))
    · obtain rfl := (List.cons.inj parts).2
      exact ⟨filled, all_digits⟩
  · rintro ⟨filled, all_digits⟩
    exact ⟨['+'], digits, rfl, .inr rfl, filled, all_digits⟩

theorem numeral_plain (unsigned : c ≠ '+') : Numeral radix (c :: rest) number ↔ Digits radix (c :: rest) number := by
  constructor
  · rintro ⟨_, others, parts, rfl | rfl, _, all_digits⟩
    · exact parts ▸ all_digits
    · exact absurd (List.cons.inj parts).1 unsigned
  · intro all_digits
    exact ⟨[], c :: rest, rfl, .inl rfl, List.cons_ne_nil c rest, all_digits⟩

/-- A text is read exactly when it is a numeral of a number within the limit, and it is read as that number. -/
theorem readNumeral_eq_ok (known : radix ≤ 16) :
    readNumeral radix limit text = .ok number ↔ Numeral radix text number ∧ number ≤ limit := by
  unfold readNumeral
  split
  · simp [not_numeral_nil]
  · simp [numeral_plus known]
  · next digits filled =>
    rw [readDigits_zero known, numeral_plus known, and_iff_right (fun empty => filled (by rw [empty]))]
  · next empty _ unsigned =>
    rw [readDigits_zero known]
    cases text with
    | nil => exact absurd rfl empty
    | cons c rest => rw [numeral_plain (fun plus => unsigned rest (by rw [plus]))]

/-- Why a text is no numeral of a number within the limit: what is missing, or the first character that is too much. -/
inductive Refused (radix limit : Nat) : List Char → NumeralError → Prop
  | empty : Refused radix limit [] .empty
  | bare : Refused radix limit ['+'] .invalidDigit
  | signed (digits : List Char) (cause : NumeralError) : Stops radix limit 0 digits cause → Refused radix limit ('+' :: digits) cause
  | plain (digits : List Char) (cause : NumeralError) : digits.head? ≠ some '+' → Stops radix limit 0 digits cause →
    Refused radix limit digits cause

theorem not_stops_nil : ¬ Stops radix limit value [] cause := by
  simp [Stops]

theorem readNumeral_eq_error (known : radix ≤ 16) : readNumeral radix limit text = .error cause ↔ Refused radix limit text cause := by
  unfold readNumeral
  split
  · rw [Except.error.injEq]
    refine ⟨fun same => same ▸ .empty, fun refused => ?_⟩
    cases refused with
    | empty => rfl
    | plain _ _ _ stops => exact absurd stops not_stops_nil
  · rw [Except.error.injEq]
    refine ⟨fun same => same ▸ .bare, fun refused => ?_⟩
    cases refused with
    | bare => rfl
    | signed _ _ stops => exact absurd stops not_stops_nil
    | plain _ _ unsigned => exact absurd rfl unsigned
  · next digits filled =>
    rw [readDigits_eq_error known (Nat.zero_le limit)]
    refine ⟨.signed digits cause, fun refused => ?_⟩
    cases refused with
    | bare => exact absurd rfl filled
    | signed _ _ stops => exact stops
    | plain _ _ unsigned => exact absurd rfl unsigned
  · next empty _ unsigned =>
    rw [readDigits_eq_error known (Nat.zero_le limit)]
    have no_sign : text.head? ≠ some '+' := fun signed => unsigned text.tail (List.eq_cons_of_mem_head? signed)
    refine ⟨.plain text cause no_sign, fun refused => ?_⟩
    cases refused with
    | empty => exact absurd rfl empty
    | bare => exact absurd rfl no_sign
    | signed => exact absurd rfl no_sign
    | plain _ _ _ stops => exact stops

theorem digit_toLower : Digit radix c.toLower value ↔ Digit radix c value := by
  rw [Digit, Digit, toLower_toLower]

theorem digits_lowered : Digits radix (lowered digits) number ↔ Digits radix digits number := by
  simp only [Digits, lowered, List.forall₂_map_left_iff, digit_toLower]

private theorem lowered_eq_plus (same : lowered text = ['+']) : text = ['+'] := by
  obtain ⟨c, rfl, lower⟩ := List.map_eq_singleton_iff.mp same
  rw [eq_plus_of_toLower lower]

/-- A numeral stands for the same number in either case. -/
theorem numeral_lowered : Numeral radix (lowered text) number ↔ Numeral radix text number := by
  constructor
  · rintro ⟨sign, digits, parts, either, filled, all_digits⟩
    obtain ⟨front, back, rfl, rfl, rfl⟩ := List.map_eq_append_iff.mp parts
    have back_filled : back ≠ [] := fun empty => filled (by rw [empty]; rfl)
    exact ⟨front, back, rfl, either.imp List.map_eq_nil_iff.mp lowered_eq_plus, back_filled, digits_lowered.mp all_digits⟩
  · rintro ⟨sign, digits, rfl, either, filled, all_digits⟩
    have either_lowered : lowered sign = [] ∨ lowered sign = ['+'] := either.imp (by rintro rfl; rfl) (by rintro rfl; rfl)
    exact ⟨lowered sign, lowered digits, lowered_append sign digits, either_lowered, fun empty => filled (List.map_eq_nil_iff.mp empty),
      digits_lowered.mpr all_digits⟩

theorem Digits.numeral (all_digits : Digits radix digits number) (filled : digits ≠ []) : Numeral radix digits number :=
  ⟨[], digits, rfl, .inl rfl, filled, all_digits⟩

theorem digit_digitChar (known : radix ≤ 16) (small : digit < radix) : Digit radix digit.digitChar digit := by
  have lower : ∀ value < 16, value.digitChar.toLower = value.digitChar := by decide
  exact ⟨small, lower digit (by omega)⟩

theorem digit_hexDigit (upper : Bool) (small : digit < 16) : Digit 16 (hexDigit upper digit) digit := by
  have lower : ∀ upper, ∀ value < 16, (hexDigit upper value).toLower = value.digitChar := by decide
  exact ⟨small, lower upper digit small⟩

/-- Of a number that is wider than its field, the last digits are written. -/
theorem digits_hexDigits (upper : Bool) (width number : Nat) : Digits 16 (hexDigits upper width number) (number % 16 ^ width) := by
  induction width generalizing number with
  | zero => simp [hexDigits, digits_nil, Nat.mod_one]
  | succ width hyp =>
    have last : Digit 16 (hexDigit upper (number % 16)) (number % 16) := digit_hexDigit upper (Nat.mod_lt _ (by decide))
    have places : number / 16 % 16 ^ width * 16 + number % 16 = number % 16 ^ (width + 1) := by
      rw [Nat.pow_succ', Nat.mod_mul]
      ring
    rw [hexDigits, ← places]
    exact (hyp (number / 16)).concat last

theorem digits_toDigits (known : radix ≤ 16) (several : 1 < radix) (number : Nat) : Digits radix (Nat.toDigits radix number) number := by
  induction number using Nat.strongRecOn with
  | ind number hyp =>
    by_cases small : number < radix
    · rw [Nat.toDigits_of_lt_base small]
      simpa using (digits_nil.mpr rfl).concat (digit_digitChar known small)
    · have shorter := hyp (number / radix) (Nat.div_lt_self (by omega) several)
      have joined := shorter.concat (digit_digitChar known (Nat.mod_lt number (by omega)))
      rwa [Nat.div_add_mod', ← Nat.toDigits_of_base_le several (by omega)] at joined

end MultiClock.Text
