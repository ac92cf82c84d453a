import MultiClock.Host.ActivityFilter
import MultiClock.Proofs.Numerals

/-! The written form of activity filters: a kind of activity, and after a space the thread or the event that it is limited to. Case
does not matter. Blanks are removed around the whole and around what follows the kind, but only a space ends the kind. What is
displayed reads back as the same filter. -/

namespace MultiClock

open Text

namespace ThreadId

/-- The texts that name a thread. A coprocessor's number is a decimal numeral, and as the index of a thread it fits in a byte. -/
inductive Names : List Char → ThreadId → Prop
  | cpu (text : List Char) : lowered text = "cpu".toList → Names text .cpu
  | smp (text : List Char) : lowered text = "smp".toList → Names text .smp
  | ppu (text : List Char) : lowered text = "ppu".toList → Names text .ppu
  | coprocessor (word digits : List Char) (index : UInt8) : lowered word = "cop".toList → Numeral 10 digits index.toNat →
    Names (word ++ digits) (.coprocessor index)

variable {text : String} {thread : ThreadId}

theorem Names.parse (names : Names text.toList thread) : parse text = .ok thread := by
  unfold ThreadId.parse
  generalize text.toList = written at names
  cases names with
  | cpu _ same => rw [same]; rfl
  | smp _ same => rw [same]; rfl
  | ppu _ same => rw [same]; rfl
  | coprocessor word digits index same numeral =>
    have read : readNumeral 10 255 (lowered digits) = .ok index.toNat :=
      (readNumeral_eq_ok (by decide)).mpr ⟨numeral_lowered.mpr numeral, by have := index.toNat_lt; omega⟩
    rw [lowered_append, same]
    simp [read]

theorem parse_names (accepted : parse text = .ok thread) : Names text.toList thread := by
  unfold ThreadId.parse at accepted
  split at accepted
  · next same => cases accepted; exact .cpu _ same
  · next same => cases accepted; exact .smp _ same
  · next same => cases accepted; exact .ppu _ same
  · next digits same =>
    split at accepted
    · next index read =>
      cases accepted
      obtain ⟨numeral, within⟩ := (readNumeral_eq_ok (by decide)).mp read
      obtain ⟨word, rest, written, word_same, rfl⟩ := List.map_eq_append_iff.mp (show lowered text.toList = "cop".toList ++ digits from same)
      have exact_byte : (UInt8.ofNat index).toNat = index := UInt8.toNat_ofNat_of_lt (by simp [UInt8.size]; omega)
      rw [written]
      exact .coprocessor word rest _ word_same (exact_byte.symm ▸ numeral_lowered.mp numeral)
    · exact absurd accepted nofun
  · exact absurd accepted nofun

theorem parse_eq_ok : parse text = .ok thread ↔ Names text.toList thread := ⟨parse_names, Names.parse⟩

theorem not_names_nil : ¬ Names [] thread := fun names =>
  have accepted : parse "" = .ok thread := Names.parse names
  absurd accepted nofun

theorem coprocessor_name (index : UInt8) : (coprocessor index).name.toList = "cop".toList ++ Nat.toDigits 10 index.toNat := by
  simp [name, Nat.toString_eq_repr, Nat.toList_repr]

theorem names_name (thread : ThreadId) : Names thread.name.toList thread := by
  cases thread with
  | cpu => exact .cpu _ rfl
  | smp => exact .smp _ rfl
  | ppu => exact .ppu _ rfl
  | coprocessor index =>
    have digits : Digits 10 (Nat.toDigits 10 index.toNat) index.toNat := digits_toDigits (by decide) (by decide) _
    rw [coprocessor_name]
    exact .coprocessor _ _ index rfl (digits.numeral Nat.toDigits_ne_nil)

theorem name_no_blank (thread : ThreadId) : ∀ c ∈ thread.name.toList, ¬ isBlank c := by
  cases thread with
  | cpu => simp [name, isBlank]
  | smp => simp [name, isBlank]
  | ppu => simp [name, isBlank]
  | coprocessor index =>
    have digits : Digits 10 (Nat.toDigits 10 index.toNat) index.toNat := digits_toDigits (by decide) (by decide) _
    have word_no_blank : ∀ c ∈ "cop".toList, ¬ isBlank c := by simp [isBlank]
    rw [coprocessor_name]
    exact List.forall_mem_append.mpr
      ⟨word_no_blank, fun c within blank => digits.not_mem (by decide) (digitValue_of_isBlank blank) within⟩

end ThreadId

namespace Event

/-- The texts that name an event. -/
inductive Names : List Char → Event → Prop
  | frame (text : List Char) : lowered text = "frame".toList → Names text .frame
  | synchronized (text : List Char) : lowered text = "synchronized".toList → Names text .synchronized
  | desynchronized (text : List Char) : lowered text = "desynchronized".toList → Names text .desynchronized

theorem parse_eq_some {text : String} {event : Event} : parse? text = some event ↔ Names text.toList event := by
  constructor
  · intro accepted
    have same := List.find?_some accepted
    rw [equalIgnoringCase, beq_iff_eq] at same
    cases event with
    | frame => exact .frame _ same.symm
    | synchronized => exact .synchronized _ same.symm
    | desynchronized => exact .desynchronized _ same.symm
  · intro names
    unfold parse? equalIgnoringCase
    cases names with
    | frame same => rw [same]; rfl
    | synchronized same => rw [same]; rfl
    | desynchronized same => rw [same]; rfl

theorem not_names_nil {event : Event} : ¬ Names [] event := fun names =>
  have accepted : parse? "" = some event := parse_eq_some.mpr names
  absurd accepted nofun

theorem names_name (event : Event) : Names event.name.toList event := by
  cases event with
  | frame => exact .frame _ rfl
  | synchronized => exact .synchronized _ rfl
  | desynchronized => exact .desynchronized _ rfl

theorem name_no_blank (event : Event) : ∀ c ∈ event.name.toList, ¬ isBlank c := by
  cases event <;> simp [name, isBlank]

end Event

namespace ActivityFilter

/-- The first space ends the first word. -/
inductive FirstWord : List Char → List Char → List Char → Prop
  | alone (words : List Char) : ' ' ∉ words → FirstWord words words []
  | followed (kind rest : List Char) : ' ' ∉ kind → FirstWord (kind ++ ' ' :: rest) kind rest

/-- Without a text there is no limit. -/
inductive Limits (names : List Char → α → Prop) : List Char → Option α → Prop
  | none : Limits names [] none
  | one (text : List Char) (argument : α) : names text argument → Limits names text (some argument)

/-- The filter of a kind and an argument. Steps and resumptions are limited to a thread, returns to the host to an event. -/
inductive Selects : List Char → List Char → ActivityFilter → Prop
  | resume (kind argument : List Char) (target : Option ThreadId) : lowered kind = "resume".toList →
    Limits ThreadId.Names argument target → Selects kind argument (.resume target)
  | leave (kind argument : List Char) (event : Option Event) : lowered kind = "leave".toList →
    Limits Event.Names argument event → Selects kind argument (.leave event)
  | step (kind argument : List Char) (thread : Option ThreadId) : lowered kind = "step".toList →
    Limits ThreadId.Names argument thread → Selects kind argument (.step thread)

/-- The text is one of those that stand for the filter. -/
def Spells (text : List Char) (filter : ActivityFilter) : Prop :=
  ∃ words kind rest argument, Trims text words ∧ FirstWord words kind rest ∧ Trims rest argument ∧ Selects kind argument filter

variable {text : String} {kind rest argument words : List Char} {filter : ActivityFilter}

theorem firstWord_iff : FirstWord words kind rest ↔ (splitOnce ' ' words).getD (words, []) = (kind, rest) := by
  constructor
  · intro first
    cases first with
    | alone _ absent => rw [splitOnce_eq_none.mpr absent]; rfl
    | followed _ _ absent => rw [splitOnce_append absent]; rfl
  · intro split_as
    cases parted : splitOnce ' ' words with
    | none =>
      rw [parted] at split_as
      obtain ⟨rfl, rfl⟩ := Prod.mk.inj split_as
      exact .alone words (splitOnce_eq_none.mp parted)
    | some pieces =>
      rw [parted] at split_as
      obtain rfl : pieces = (kind, rest) := split_as
      obtain ⟨rfl, absent⟩ := splitOnce_eq_some.mp parted
      exact .followed kind rest absent

theorem parseThread_eq_ok {thread : ThreadId} : parseThread text = .ok thread ↔ ThreadId.Names text.toList thread := by
  rw [← ThreadId.parse_eq_ok, parseThread]
  cases ThreadId.parse text <;> simp

theorem parseEvent_eq_ok {event : Event} : parseEvent text = .ok event ↔ Event.Names text.toList event := by
  rw [← Event.parse_eq_some, parseEvent]
  cases Event.parse? text <;> simp

section optional
variable {names : List Char → α → Prop} {limit : Option α}

theorem limits_nil (unnamed : ∀ value, ¬ names [] value) : Limits names [] limit ↔ limit = none := by
  constructor
  · intro limits
    cases limits with
    | none => rfl
    | one _ value named => exact absurd named (unnamed value)
  · rintro rfl
    exact .none

theorem limits_of_filled (filled : argument ≠ []) : Limits names argument limit ↔ ∃ value, names argument value ∧ limit = some value := by
  constructor
  · intro limits
    cases limits with
    | none => exact absurd rfl filled
    | one _ value named => exact ⟨value, named, rfl⟩
  · rintro ⟨value, named, rfl⟩
    exact .one argument value named

theorem parseOptional_eq_ok {read : String → Except Problem α} (unnamed : ∀ value, ¬ names [] value)
    (reads : ∀ text value, read text = .ok value ↔ names text.toList value) :
    parseOptional read argument = .ok limit ↔ Limits names argument limit := by
  by_cases empty : argument = []
  · rw [empty, limits_nil unnamed]
    simp [parseOptional, eq_comm]
  · have named (value : α) : names argument value ↔ read (String.ofList argument) = .ok value := by
      rw [reads, String.toList_ofList]
    rw [limits_of_filled empty, parseOptional, if_neg (by simpa using empty)]
    simp only [named]
    cases read (String.ofList argument) with
    | ok value => simp [eq_comm]
    | error problem => simp

theorem parse_thread {target : Option ThreadId} :
    parseOptional parseThread argument = .ok target ↔ Limits ThreadId.Names argument target :=
  parseOptional_eq_ok (fun _ => ThreadId.not_names_nil) fun _ _ => parseThread_eq_ok

theorem parse_event {event : Option Event} : parseOptional parseEvent argument = .ok event ↔ Limits Event.Names argument event :=
  parseOptional_eq_ok (fun _ => Event.not_names_nil) fun _ _ => parseEvent_eq_ok

end optional

theorem spells_iff {written : List Char} (first : FirstWord (trimmed written) kind rest) :
    Spells written filter ↔ Selects kind (trimmed rest) filter := by
  constructor
  · rintro ⟨words, other, others, argument, trims, again, argument_trims, selects⟩
    rw [← trims.trimmed_eq] at again
    obtain ⟨rfl, rfl⟩ := Prod.mk.inj ((firstWord_iff.mp first).symm.trans (firstWord_iff.mp again))
    exact argument_trims.trimmed_eq.symm ▸ selects
  · intro selects
    exact ⟨_, kind, rest, _, trims_trimmed written, first, trims_trimmed rest, selects⟩

private theorem argument_of_made {read : Except Problem α} {make : α → ActivityFilter} (made : (do return make (← read)) = .ok filter) :
    ∃ argument, read = .ok argument ∧ filter = make argument := by
  cases read with
  | ok argument => exact ⟨argument, rfl, (Except.ok.inj made).symm⟩
  | error problem => exact absurd made nofun

theorem parse_selects (first : FirstWord (trimmed text.toList) kind rest) :
    parse text = .ok filter ↔ Selects kind (trimmed rest) filter := by
  rw [parse, firstWord_iff.mp first]
  dsimp only
  constructor
  · intro accepted
    split at accepted
    · next same =>
      obtain ⟨target, read, rfl⟩ := argument_of_made accepted
      exact .resume kind _ target same (parse_thread.mp read)
    · next same =>
      obtain ⟨event, read, rfl⟩ := argument_of_made accepted
      exact .leave kind _ event same (parse_event.mp read)
    · next same =>
      obtain ⟨thread, read, rfl⟩ := argument_of_made accepted
      exact .step kind _ thread same (parse_thread.mp read)
    · exact absurd accepted nofun
  · intro selects
    cases selects with
    | resume target same limits => rw [same, parse_thread.mpr limits]; rfl
    | leave event same limits => rw [same, parse_event.mpr limits]; rfl
    | step thread same limits => rw [same, parse_thread.mpr limits]; rfl

theorem parse_eq_ok : parse text = .ok filter ↔ Spells text.toList filter := by
  obtain ⟨kind, rest, first⟩ : ∃ kind rest, FirstWord (trimmed text.toList) kind rest := ⟨_, _, firstWord_iff.mpr rfl⟩
  rw [spells_iff first, parse_selects first]

theorem spells_alone (no_blank : ∀ c ∈ kind, ¬ isBlank c) (selects : Selects kind [] filter) : Spells kind filter :=
  have no_space : ' ' ∉ kind := fun within => no_blank ' ' within rfl
  ⟨kind, kind, [], [], trims_of_no_blank no_blank, .alone kind no_space, trims_of_no_blank nofun, selects⟩

theorem spells_both (no_blank : ∀ c ∈ kind ++ argument, ¬ isBlank c) (kind_filled : kind ≠ []) (argument_filled : argument ≠ [])
    (selects : Selects kind argument filter) : Spells (kind ++ ' ' :: argument) filter := by
  have kind_plain (c : Char) (within : c ∈ kind) : ¬ isBlank c := no_blank c (List.mem_append_left _ within)
  have argument_plain (c : Char) (within : c ∈ argument) : ¬ isBlank c := no_blank c (List.mem_append_right _ within)
  have no_space : ' ' ∉ kind := fun within => kind_plain ' ' within rfl
  have whole : Trims (kind ++ ' ' :: argument) (kind ++ ' ' :: argument) := by
    refine trims_self (fun _ => ?_) fun _ => ?_
    · rw [List.head_append_of_ne_nil kind_filled]
      exact kind_plain _ (List.head_mem kind_filled)
    · rw [List.getLast_append_of_ne_nil _ (List.cons_ne_nil _ _), List.getLast_cons argument_filled]
      exact argument_plain _ (List.getLast_mem argument_filled)
  exact ⟨_, kind, argument, argument, whole, .followed kind argument no_space, trims_of_no_blank argument_plain, selects⟩

/-- A kind is displayed alone or with the name of its limit. Neither holds a blank, so that the space between them is the only one
and nothing is removed from the ends. -/
theorem spells_displayed {names : List Char → α → Prop} {name : α → String} {limit : Option α} {word : String}
    (word_no_blank : ∀ c ∈ word.toList, ¬ isBlank c) (word_filled : word.toList ≠ []) (unnamed : ∀ argument, ¬ names [] argument)
    (no_blank : ∀ argument, ∀ c ∈ (name argument).toList, ¬ isBlank c) (named : ∀ argument, names (name argument).toList argument)
    (selects : ∀ argument, Limits names argument limit → Selects word.toList argument filter) :
    Spells (word ++ renderArgument name limit).toList filter := by
  cases limit with
  | none =>
    have written : (word ++ renderArgument name none).toList = word.toList := by simp [renderArgument]
    rw [written]
    exact spells_alone word_no_blank (selects [] .none)
  | some argument =>
    have written : (word ++ renderArgument name (some argument)).toList = word.toList ++ ' ' :: (name argument).toList := by
      simp [renderArgument]
    have filled : (name argument).toList ≠ [] := fun empty => unnamed argument (empty ▸ named argument)
    rw [written]
    exact spells_both (List.forall_mem_append.mpr ⟨word_no_blank, no_blank argument⟩) word_filled filled
      (selects _ (.one _ argument (named argument)))

theorem spells_render (filter : ActivityFilter) : Spells filter.render.toList filter := by
  cases filter with
  | resume target =>
    exact spells_displayed (by simp [isBlank]) (by simp) (fun _ => ThreadId.not_names_nil) ThreadId.name_no_blank ThreadId.names_name
      fun argument => .resume _ argument target rfl
  | leave event =>
    exact spells_displayed (by simp [isBlank]) (by simp) (fun _ => Event.not_names_nil) Event.name_no_blank Event.names_name
      fun argument => .leave _ argument event rfl
  | step thread =>
    exact spells_displayed (by simp [isBlank]) (by simp) (fun _ => ThreadId.not_names_nil) ThreadId.name_no_blank ThreadId.names_name
      fun argument => .step _ argument thread rfl

/-- The written form of filters: which texts are accepted and as what, and that what is displayed reads back. -/
theorem filter_grammar (text : String) :
    (∀ filter, parse text = .ok filter ↔ Spells text.toList filter) ∧
    (∀ filter, parse (render filter) = .ok filter) ∧ (do parse (render (← parse text))) = parse text := by
  have displayed (filter : ActivityFilter) : parse (render filter) = .ok filter := parse_eq_ok.mpr (spells_render filter)
  refine ⟨fun _ => parse_eq_ok, displayed, ?_⟩
  cases parse text with
  | ok filter => exact displayed filter
  | error problem => rfl

example : parse " Step \t COP+007 " = .ok (.step (some (.coprocessor 7))) := rfl

example : parse "step\tsmp" = .error (.unknown "step\tsmp") := rfl

end ActivityFilter
end MultiClock
