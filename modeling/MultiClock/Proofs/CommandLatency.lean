import Mathlib.Data.List.Chain
import MultiClock.Proofs.SliceEffects

/-! Commands of the arithmetic unit, from the slice that takes one to the slice that answers it. In the meantime the reference may
write to the input ports and raise the strobe again, and the clocks may become anything; only the output ports are the unit's alone. -/

namespace MultiClock
namespace Multiplier
variable {first last : Multiplier} {episode previous : Episode Multiplier} {episodes later : List (Episode Multiplier)} {command : Latch}

/-- What the answer to a command is: a product, or a quotient and a remainder, least significant byte first. -/
structure Answers (command answered : Latch) : Prop where
  product : (command.readInput 0).toNat % 2 = 0 →
    (answered.readOutput 0).toNat + 256 * (answered.readOutput 1).toNat =
      (command.readInput 1).toNat * (command.readInput 2).toNat ∧ answered.readOutput 2 = 0 ∧ answered.readOutput 3 = 0
  quotient : (command.readInput 0).toNat % 2 = 1 → 0 < (command.readInput 3).toNat →
    ((answered.readOutput 0).toNat + 256 * (answered.readOutput 1).toNat) * (command.readInput 3).toNat +
        (answered.readOutput 2).toNat = (command.readInput 1).toNat + 256 * (command.readInput 2).toNat ∧
      (answered.readOutput 2).toNat < (command.readInput 3).toNat ∧ answered.readOutput 3 = 0
  byZero : (command.readInput 0).toNat % 2 = 1 → (command.readInput 3).toNat = 0 →
    answered.readOutput 0 = 0xFF ∧ answered.readOutput 1 = 0xFF ∧ answered.readOutput 2 = command.readInput 1 ∧
      answered.readOutput 3 = 0

theorem halves_word {word : Nat} (fits : word < 2 ^ 16) : (halves word).1.toNat + 256 * (halves word).2.toNat = word := by
  simp only [halves, UInt8.toNat_ofNat']
  omega

theorem even_iff (value : UInt8) : value % 2 = 0 ↔ value.toNat % 2 = 0 := by
  rw [← UInt8.toNat_inj, UInt8.toNat_mod]
  rfl

theorem result_even {command : Latch} (even : (command.readInput 0).toNat % 2 = 0) :
    result command.input =
      #v[(halves ((command.readInput 1).toNat * (command.readInput 2).toNat)).1,
        (halves ((command.readInput 1).toNat * (command.readInput 2).toNat)).2, 0, 0] :=
  if_pos ((even_iff (command.readInput 0)).mpr even)

theorem result_odd {command : Latch} (odd : (command.readInput 0).toNat % 2 = 1) :
    result command.input =
      let dividend := (command.readInput 1).toNat + 256 * (command.readInput 2).toNat
      let divisor := (command.readInput 3).toNat
      let division := if divisor = 0 then (0xFFFF, dividend) else (dividend / divisor, dividend % divisor)
      #v[(halves division.1).1, (halves division.1).2, UInt8.ofNat division.2, 0] := by
  have uneven : ¬ command.readInput 0 % 2 = 0 := by
    rw [even_iff, odd]
    exact Nat.one_ne_zero
  exact if_neg uneven

theorem result_answers (command latch : Latch) : Answers command { latch with output := result command.input } := by
  have a := (command.readInput 1).toNat_lt
  have b := (command.readInput 2).toNat_lt
  have c := (command.readInput 3).toNat_lt
  constructor
  case product =>
    intro even
    rw [result_even even]
    refine ⟨halves_word ?_, rfl, rfl⟩
    nlinarith
  case quotient =>
    intro odd divides
    have dividend : (command.readInput 1).toNat + 256 * (command.readInput 2).toNat < 2 ^ 16 := by omega
    have remainder := Nat.mod_lt ((command.readInput 1).toNat + 256 * (command.readInput 2).toNat) divides
    have rest : (UInt8.ofNat (((command.readInput 1).toNat + 256 * (command.readInput 2).toNat) % (command.readInput 3).toNat)).toNat =
        ((command.readInput 1).toNat + 256 * (command.readInput 2).toNat) % (command.readInput 3).toNat := by
      rw [UInt8.toNat_ofNat', Nat.mod_eq_of_lt (by omega)]
    rw [result_odd odd]
    simp only [if_neg (Nat.ne_of_gt divides)]
    refine ⟨?_, ?_, rfl⟩
    · change ((halves _).1.toNat + 256 * (halves _).2.toNat) * _ + (UInt8.ofNat _).toNat = _
      rw [halves_word (Nat.lt_of_le_of_lt (Nat.div_le_self _ _) dividend), rest]
      exact Nat.div_add_mod' _ _
    · change (UInt8.ofNat _).toNat < _
      rw [rest]
      exact remainder
  case byZero =>
    intro odd zero
    have low : UInt8.ofNat ((command.readInput 1).toNat + 256 * (command.readInput 2).toNat) = command.readInput 1 := by
      apply UInt8.toNat_inj.mp
      rw [UInt8.toNat_ofNat']
      omega
    rw [result_odd odd]
    simp only [if_pos zero, low]
    exact ⟨rfl, rfl, rfl, rfl⟩

/-- The latch of the unit, as a slice finds it. -/
def found? (episode : Episode Multiplier) : Option Latch := episode.given.latch? episode.before.index.toNat

/-- The latch of the unit, as a slice leaves it. -/
def left? (episode : Episode Multiplier) : Option Latch := episode.left.latch? episode.before.index.toNat

def Raised (latch : Option Latch) : Prop := latch.any (·.strobe) = true

instance (latch : Option Latch) : Decidable (Raised latch) := inferInstanceAs (Decidable (_ = true))

/-- The slice takes the strobe. -/
def Accepts (episode : Episode Multiplier) : Prop := Raised (found? episode) ∧ ¬ Raised (left? episode)

instance (episode : Episode Multiplier) : Decidable (Accepts episode) :=
  inferInstanceAs (Decidable (Raised (found? episode) ∧ ¬ Raised (left? episode)))

/-- The slice takes the strobe of a command. -/
structure Takes (episode : Episode Multiplier) (command : Latch) : Prop where
  found : found? episode = some command
  accepts : Accepts episode

/-- The slice goes on at the synchronization point. -/
def Passes (episode : Episode Multiplier) : Prop := episode.before.continuation = .idle ∧ episode.after.continuation ≠ .idle

/-- The slice in which the result of a command is due. -/
def Completes (episode : Episode Multiplier) : Prop := episode.before.continuation = .complete

instance (episode : Episode Multiplier) : Decidable (Completes episode) :=
  inferInstanceAs (Decidable (episode.before.continuation = .complete))

/-- Between two slices the latch keeps its output, and its strobe if that is raised. Everything else may change. -/
def Respects (earlier later : Episode Multiplier) : Prop :=
  ∀ latch, left? earlier = some latch →
    ∃ found, found? later = some found ∧ found.output = latch.output ∧ (latch.strobe = true → found.strobe = true)

/-- What a latch shows while its command executes. -/
structure Busy (command latch : Latch) : Prop where
  kept : ∀ port < 3, latch.readOutput port = command.readOutput port
  status : latch.readOutput 3 = busyStatus

/-- A step of one unit on a command. -/
structure Steps (command : Latch) (episode : Episode Multiplier) : Prop where
  units : episode.units = 1
  asked : episode.asked = none
  working : ¬ Completes episode
  busy : ∃ latch, left? episode = some latch ∧ Busy command latch

/-- The slice that answers a command. It leaves the input and the strobe of the latch alone. -/
structure Finishes (command : Latch) (episode : Episode Multiplier) : Prop where
  units : episode.units = 0
  completes : Completes episode
  idle : episode.after.continuation = .idle
  counted : episode.after.operations = episode.before.operations + 1
  answered : ∃ latch answered, found? episode = some latch ∧ Busy command latch ∧ left? episode = some answered ∧
    answered.input = latch.input ∧ answered.strobe = latch.strobe ∧ Answers command answered

theorem raised_iff {latch : Option Latch} : Raised latch ↔ ∃ found, latch = some found ∧ found.strobe = true := by
  cases latch <;> simp [Raised]

/-! What becomes of each continuation. -/

section continuations
variable {bus left : Bus} {before after : Multiplier} {action : Action} (proceeds : before.Proceeds bus after left action)
include proceeds

theorem Proceeds.of_idle (idle : before.continuation = .idle) :
    (∃ command, before.pending? bus = some command ∧
        after = { before with operands := command.input, continuation := .busy latency } ∧
        left = bus.modifyCoprocessor before.index.toNat taken) ∨
      left = bus ∧ (after = before ∨ before.pending? bus = none ∧ after = { before with continuation := .waited }) := by
  cases proceeds with
  | stop => exact .inr ⟨rfl, .inl rfl⟩
  | take _ command pending => exact .inl ⟨command, pending, rfl, rfl⟩
  | wait _ quiet => exact .inr ⟨rfl, .inr ⟨quiet, rfl⟩⟩
  | caughtUp other | step _ other | complete other => cases idle.symm.trans other

theorem Proceeds.of_waited (waited : before.continuation = .waited) : left = bus ∧ after = { before with continuation := .idle } := by
  cases proceeds with
  | caughtUp => exact ⟨rfl, rfl⟩
  | stop other | take other | wait other | step _ other | complete other => cases waited.symm.trans other

theorem Proceeds.of_busy {remaining : UInt8} (working : before.continuation = .busy remaining) :
    action = .step 1 ∧ left = bus ∧
      after = { before with continuation := if 1 < remaining then .busy (remaining - 1) else .complete } := by
  cases proceeds with
  | step _ same =>
    cases working.symm.trans same
    exact ⟨rfl, rfl, rfl⟩
  | stop other | take other | wait other | caughtUp other | complete other => cases working.symm.trans other

theorem Proceeds.of_complete (due : before.continuation = .complete) :
    action.Yields ∧ after = { before with operations := before.operations + 1, continuation := .idle } ∧
      left = bus.modifyCoprocessor before.index.toNat fun latch => { latch with output := result before.operands } := by
  cases proceeds with
  | complete _ yields => exact ⟨yields, rfl, rfl⟩
  | stop other | take other | wait other | caughtUp other | step _ other => cases due.symm.trans other

theorem Proceeds.index : after.index = before.index := by
  cases proceeds <;> rfl

end continuations

/-! One slice of the unit. -/

theorem happens_proceeds (happens : episode.Happens) :
    ∃ action, episode.given.Does action episode.left ∧
      episode.before.Proceeds episode.given.bus episode.after episode.left.bus action :=
  (episode.before.slice_proceeds episode.given).of_ok happens

theorem same_of_bus (bus : episode.left.bus = episode.given.bus) : left? episode = found? episode := by
  simp only [left?, found?, Context.latch?, bus]

theorem left_of_modify {change : Latch → Latch}
    (bus : episode.left.bus = episode.given.bus.modifyCoprocessor episode.before.index.toNat change) :
    left? episode = (found? episode).map change := by
  simp only [left?, found?, Context.latch?, bus, Bus.coprocessors_modifyCoprocessor, if_pos]

theorem busy_of_output {latch : Latch} (output : latch.output = (taken command).output) : Busy command latch := by
  constructor
  case kept =>
    intro port inside
    simp only [Latch.readOutput, output, taken, Latch.port]
    rw [Fin.getElem_fin, Vector.getElem_set_ne _ _ (by simp; omega)]
    rfl
  case status =>
    simp only [Latch.readOutput, output, taken, Latch.port, Fin.getElem_fin]
    exact Vector.getElem_set_self _

/-- The unit works on operands, and so many steps are left. -/
inductive Working (operands : Vector UInt8 4) (unit : Multiplier) : Nat → Prop
  | due (complete : unit.continuation = .complete) (captured : unit.operands = operands) : Working operands unit 0
  | busy {left : Nat} (remaining : UInt8) (busy : unit.continuation = .busy remaining) (counts : remaining.toNat = left + 1)
      (captured : unit.operands = operands) : Working operands unit (left + 1)

theorem steps_of_working {operands : Vector UInt8 4} {left : Nat} (happens : episode.Happens)
    (working : Working operands episode.before (left + 1)) :
    episode.units = 1 ∧ episode.asked = none ∧ ¬ Completes episode ∧ left? episode = found? episode ∧
      Working operands episode.after left := by
  obtain ⟨action, does, proceeds⟩ := happens_proceeds happens
  cases working with
  | busy remaining busy counts captured =>
    obtain ⟨rfl, bus, after⟩ := proceeds.of_busy busy
    have unfinished : ¬ Completes episode := by
      intro complete
      cases busy.symm.trans complete
    refine ⟨Episode.units_of_does does, Episode.asked_of_does does, unfinished, same_of_bus bus, ?_⟩
    rw [after]
    by_cases several : 1 < remaining
    · obtain ⟨more, fewer⟩ := counted_down several
      rw [if_pos several]
      obtain ⟨left, rfl⟩ : ∃ fewer, left = fewer + 1 := ⟨left - 1, by rw [counts] at more; omega⟩
      exact .busy _ rfl (by rw [fewer, counts, Nat.add_sub_cancel]) captured
    · have few := mt UInt8.lt_iff_toNat_lt.mpr several
      rw [if_neg several]
      obtain rfl : left = 0 := by
        rw [counts, UInt8.toNat_one] at few
        omega
      exact .due rfl captured

theorem finishes_of_working (happens : episode.Happens) (working : Working command.input episode.before 0) {latch : Latch}
    (found : found? episode = some latch) (output : latch.output = (taken command).output) : Finishes command episode := by
  obtain ⟨action, does, proceeds⟩ := happens_proceeds happens
  cases working with
  | due complete captured =>
    obtain ⟨yields, after, bus⟩ := proceeds.of_complete complete
    have written : left? episode = some { latch with output := result command.input } := by
      rw [left_of_modify bus, found, captured, Option.map_some]
    constructor
    case units =>
      rw [Episode.units_of_does does]
      exact yields.timeless
    case completes => exact complete
    case idle => rw [after]
    case counted => rw [after]
    case answered => exact ⟨latch, _, found, busy_of_output output, written, rfl, rfl, result_answers command latch⟩

theorem not_accepts_of_bus (bus : episode.left.bus = episode.given.bus) : ¬ Accepts episode := by
  intro both
  obtain ⟨raised, lowered⟩ := both
  rw [same_of_bus bus] at lowered
  exact lowered raised

theorem pending_iff : episode.before.pending? episode.given.bus = some command ↔ found? episode = some command ∧ command.strobe = true :=
  Option.filter_eq_some_iff

theorem accepts_iff (happens : episode.Happens) : Accepts episode ↔ Passes episode ∧ Raised (found? episode) := by
  obtain ⟨action, _, proceeds⟩ := happens_proceeds happens
  -- A slice lowers the strobe in one case only, when it takes a command. An answer writes the output and leaves the strobe.
  cases at_work : episode.before.continuation with
  | idle =>
    obtain ⟨command, pending, after, bus⟩ | ⟨bus, same | ⟨quiet, after⟩⟩ := proceeds.of_idle at_work
    · obtain ⟨found, raised⟩ := pending_iff.mp pending
      have passes : Passes episode := ⟨at_work, by simp [after]⟩
      have before : Raised (found? episode) := raised_iff.mpr ⟨command, found, raised⟩
      have lowered : ¬ Raised (left? episode) := by simp [left_of_modify bus, found, Raised, taken]
      exact ⟨fun _ => ⟨passes, before⟩, fun _ => ⟨before, lowered⟩⟩
    · refine ⟨fun accepts => absurd accepts (not_accepts_of_bus bus), ?_⟩
      intro both
      obtain ⟨passes, _⟩ := both
      exact absurd (same ▸ at_work) passes.2
    · refine ⟨fun accepts => absurd accepts (not_accepts_of_bus bus), ?_⟩
      intro both
      obtain ⟨_, raised⟩ := both
      obtain ⟨command, found, raised⟩ := raised_iff.mp raised
      cases quiet.symm.trans (pending_iff.mpr ⟨found, raised⟩)
  | waited =>
    refine ⟨fun accepts => absurd accepts (not_accepts_of_bus (proceeds.of_waited at_work).1), ?_⟩
    intro both
    obtain ⟨passes, _⟩ := both
    cases at_work.symm.trans passes.1
  | busy remaining =>
    refine ⟨fun accepts => absurd accepts (not_accepts_of_bus (proceeds.of_busy at_work).2.1), ?_⟩
    intro both
    obtain ⟨passes, _⟩ := both
    cases at_work.symm.trans passes.1
  | complete =>
    refine ⟨fun accepts => ?_, fun both => ?_⟩
    · obtain ⟨raised, lowered⟩ := accepts
      obtain ⟨latch, found, raised⟩ := raised_iff.mp raised
      refine absurd (raised_iff.mpr ⟨{ latch with output := result episode.before.operands }, ?_, raised⟩) lowered
      rw [left_of_modify (proceeds.of_complete at_work).2.2, found, Option.map_some]
    · cases at_work.symm.trans both.1.1

theorem working_of_takes (happens : episode.Happens) (takes : Takes episode command) :
    Working command.input episode.after latency.toNat ∧ left? episode = some (taken command) := by
  obtain ⟨passes, raised⟩ := (accepts_iff happens).mp takes.accepts
  obtain ⟨action, _, proceeds⟩ := happens_proceeds happens
  obtain ⟨other, pending, after, bus⟩ | ⟨bus, _⟩ := proceeds.of_idle passes.1
  · cases (pending_iff.mp pending).1.symm.trans takes.found
    rw [after, left_of_modify bus, takes.found]
    exact ⟨.busy latency rfl rfl rfl, rfl⟩
  · exact absurd takes.accepts (not_accepts_of_bus bus)

theorem raised_kept (happens : episode.Happens) (raised : Raised (found? episode)) (waits : ¬ Passes episode) :
    Raised (left? episode) := by
  by_contra lowered
  exact waits ((accepts_iff happens).mp ⟨raised, lowered⟩).1

theorem passes_in_run (happens : episode.Happens) (idle : episode.before.continuation = .idle)
    (normal : episode.given.scheduler.mode = .run) : Passes episode := by
  obtain ⟨before, given, after, left⟩ := episode
  obtain ⟨action, does, proceeds⟩ := happens_proceeds happens
  refine ⟨idle, ?_⟩
  simp only at does proceeds idle normal ⊢
  generalize left.bus = bus at proceeds
  cases proceeds with
  | take | wait => simp
  | caughtUp other | step _ other | complete other => cases idle.symm.trans other
  | stop => exact absurd normal does.not_run

/-! Any number of slices. -/

theorem working_served {unit : Multiplier} {left : Nat} (course : Course unit later last)
    (respected : (previous :: later).IsChain Respects) (working : Working command.input unit left)
    (shown : ∃ latch, left? previous = some latch ∧ latch.output = (taken command).output) :
    ∀ position episode, later[position]? = some episode →
      (position < left → Steps command episode) ∧ (position = left → Finishes command episode) := by
  -- Each slice steps one of the units that are left. In between the host and the reference leave the output alone.
  induction later generalizing unit left previous with
  | nil =>
    intro position episode listed
    simp at listed
  | cons episode later ih =>
    obtain ⟨next, rest⟩ := List.isChain_cons_cons.mp respected
    obtain ⟨latch, found, output⟩ := shown
    obtain ⟨seen, found, same, _⟩ := next latch found
    rw [output] at same
    cases course with
    | slice happens more =>
      intro position other listed
      cases left with
      | zero =>
        refine ⟨fun before => absurd before (Nat.not_lt_zero position), ?_⟩
        intro now
        subst now
        cases listed
        exact finishes_of_working happens working found same
      | succ left =>
        obtain ⟨units, asked, unfinished, kept, fewer⟩ := steps_of_working happens working
        cases position with
        | zero =>
          cases listed
          refine ⟨fun _ => ⟨units, asked, unfinished, seen, kept.trans found, busy_of_output same⟩, fun now => ?_⟩
          cases now
        | succ position =>
          have served := ih more rest fewer ⟨seen, kept.trans found, same⟩ position other listed
          rwa [Nat.add_lt_add_iff_right, Nat.add_right_cancel_iff]

/-- A raised strobe waits for the next slice that goes on at the synchronization point. -/
theorem raised_at_point {waiting : List (Episode Multiplier)} {point : Episode Multiplier}
    (course : Course first (waiting ++ point :: later) last) (respected : (waiting ++ point :: later).IsChain Respects)
    (raised : ∀ episode ∈ (waiting ++ point :: later).head?, Raised (found? episode)) (waits : ∀ episode ∈ waiting, ¬ Passes episode) :
    Raised (found? point) := by
  induction waiting generalizing first with
  | nil => exact raised point rfl
  | cons episode waiting ih =>
    obtain ⟨now, rest⟩ := List.forall_mem_cons.mp waits
    obtain ⟨next, chain⟩ := List.isChain_cons.mp respected
    cases course with
    | slice happens more =>
      have kept := raised_kept happens (raised _ rfl) now
      apply ih more chain ?_ rest
      intro following first
      obtain ⟨latch, found, raised⟩ := raised_iff.mp kept
      obtain ⟨seen, there, _, still⟩ := next following first latch found
      exact raised_iff.mpr ⟨seen, there, still raised⟩

/-- Commands that are taken and not answered yet. -/
def inFlight (unit : Multiplier) : Nat :=
  match unit.continuation with
  | .idle | .waited => 0
  | .busy _ | .complete => 1

def takenIn (episodes : List (Episode Multiplier)) : Nat := episodes.countP fun episode => Accepts episode

def completedIn (episodes : List (Episode Multiplier)) : Nat := episodes.countP fun episode => Completes episode

theorem inFlight_kept (happens : episode.Happens) :
    episode.before.inFlight + (if Accepts episode then 1 else 0) = (if Completes episode then 1 else 0) + episode.after.inFlight := by
  obtain ⟨action, _, proceeds⟩ := happens_proceeds happens
  have refuses : episode.before.continuation ≠ .idle → ¬ Accepts episode := by
    intro working accepts
    exact working ((accepts_iff happens).mp accepts).1.1
  cases at_work : episode.before.continuation with
  | idle =>
    obtain ⟨command, pending, after, bus⟩ | ⟨bus, same | ⟨quiet, after⟩⟩ := proceeds.of_idle at_work
    · obtain ⟨found, raised⟩ := pending_iff.mp pending
      have accepts : Accepts episode := (accepts_iff happens).mpr ⟨⟨at_work, by simp [after]⟩, raised_iff.mpr ⟨command, found, raised⟩⟩
      simp [inFlight, Completes, at_work, after, accepts]
    · simp [inFlight, Completes, at_work, same, not_accepts_of_bus bus]
    · simp [inFlight, Completes, at_work, after, not_accepts_of_bus bus]
  | waited =>
    have after := (proceeds.of_waited at_work).2
    simp [inFlight, Completes, at_work, after, refuses]
  | busy remaining =>
    have after := (proceeds.of_busy at_work).2.2
    by_cases several : 1 < remaining <;> simp [inFlight, Completes, at_work, after, refuses, several]
  | complete =>
    have after := (proceeds.of_complete at_work).2.1
    simp [inFlight, Completes, at_work, after, refuses]

theorem operations_kept (happens : episode.Happens) :
    episode.after.operations = if Completes episode then episode.before.operations + 1 else episode.before.operations := by
  obtain ⟨action, _, proceeds⟩ := happens_proceeds happens
  cases at_work : episode.before.continuation with
  | idle =>
    obtain ⟨command, _, after, _⟩ | ⟨_, after | ⟨_, after⟩⟩ := proceeds.of_idle at_work
    all_goals simp [after, Completes, at_work]
  | waited => simp [(proceeds.of_waited at_work).2, Completes, at_work]
  | busy remaining => simp [(proceeds.of_busy at_work).2.2, Completes, at_work]
  | complete => simp [(proceeds.of_complete at_work).2.1, Completes, at_work]

theorem course_inFlight (course : Course first episodes last) :
    first.inFlight + takenIn episodes = completedIn episodes + last.inFlight := by
  induction course with
  | rest => rw [takenIn, completedIn, List.countP_nil, List.countP_nil, Nat.add_zero, Nat.zero_add]
  | slice happens more ih =>
    have now := inFlight_kept happens
    rw [takenIn, completedIn] at ih ⊢
    simp only [List.countP_cons, decide_eq_true_eq] at now ⊢
    omega

theorem course_operations (course : Course first episodes last) :
    last.operations.toNat = (first.operations.toNat + completedIn episodes) % 2 ^ 32 := by
  induction course with
  | rest unit => exact (Nat.mod_eq_of_lt unit.operations.toNat_lt).symm
  | slice happens more ih =>
    have now := operations_kept happens
    rw [completedIn] at ih ⊢
    simp only [List.countP_cons, decide_eq_true_eq] at now ⊢
    rw [ih, now]
    split
    · rw [UInt32.toNat_add, UInt32.toNat_one]
      omega
    · rw [Nat.add_zero]

/-- What holds of the commands of a unit in some of its slices. -/
structure Obeys (first : Multiplier) (episodes : List (Episode Multiplier)) (last : Multiplier) : Prop where
  taken : ∀ earlier taking later command, episodes = earlier ++ taking :: later → Takes taking command →
    ∃ latch, left? taking = some latch ∧ Busy command latch
  steps : ∀ earlier taking later command, episodes = earlier ++ taking :: later → Takes taking command →
    ∀ position < latency.toNat, ∀ episode, later[position]? = some episode → Steps command episode
  finishes : ∀ earlier taking later command, episodes = earlier ++ taking :: later → Takes taking command →
    ∀ episode, later[latency.toNat]? = some episode → Finishes command episode
  waits : ∀ episode ∈ episodes, Raised (found? episode) → ¬ Passes episode → Raised (left? episode)
  passed : ∀ earlier waiting point later, episodes = earlier ++ (waiting ++ point :: later) →
    (∀ episode ∈ (waiting ++ point :: later).head?, Raised (found? episode)) → (∀ episode ∈ waiting, ¬ Passes episode) →
    Passes point → ∃ command, Takes point command
  normal : ∀ episode ∈ episodes, episode.before.continuation = .idle → episode.given.scheduler.mode = .run → Passes episode
  inFlight : first.inFlight + takenIn episodes = completedIn episodes + last.inFlight
  operations : last.operations.toNat = (first.operations.toNat + completedIn episodes) % 2 ^ 32
  returns : ∀ cx : Context, cx.Suits → ∃ result, Chip.slice last cx = .ok result

/-- Every command is taken once, worked on for its latency and answered, whatever its surroundings do in the meantime short of writing
to the unit's own output or taking its strobe back. -/
theorem commands_obeyed (course : Course first episodes last) (respected : episodes.IsChain Respects) : Obeys first episodes last := by
  -- What becomes of a taken command depends on the course from there on only.
  have served : ∀ earlier taking later command, episodes = earlier ++ taking :: later → Takes taking command →
      left? taking = some (Multiplier.taken command) ∧ ∀ position episode, later[position]? = some episode →
        (position < latency.toNat → Steps command episode) ∧ (position = latency.toNat → Finishes command episode) := by
    intro earlier taking later command listed takes
    subst listed
    obtain ⟨middle, _, ends⟩ := course.split
    cases ends with
    | slice happens more =>
      obtain ⟨working, left⟩ := working_of_takes happens takes
      have chain := (List.isChain_append.mp respected).2.1
      exact ⟨left, working_served more chain working ⟨_, left, rfl⟩⟩
  constructor
  case taken =>
    intro earlier taking later command listed takes
    exact ⟨_, (served earlier taking later command listed takes).1, busy_of_output rfl⟩
  case steps =>
    intro earlier taking later command listed takes position early episode found
    exact ((served earlier taking later command listed takes).2 position episode found).1 early
  case finishes =>
    intro earlier taking later command listed takes episode found
    exact ((served earlier taking later command listed takes).2 _ episode found).2 rfl
  case waits =>
    intro episode member
    exact raised_kept (course.happens episode member)
  case passed =>
    intro earlier waiting point later listed raised waits passes
    subst listed
    obtain ⟨middle, _, ends⟩ := course.split
    have still := raised_at_point ends (List.isChain_append.mp respected).2.1 raised waits
    obtain ⟨command, found, _⟩ := raised_iff.mp still
    have happens := ends.happens point (by simp)
    exact ⟨command, found, (accepts_iff happens).mpr ⟨passes, still⟩⟩
  case normal =>
    intro episode member
    exact passes_in_run (course.happens episode member)
  case inFlight => exact course_inFlight course
  case operations => exact course_operations course
  case returns => exact fun _ suits => last.slice_returns suits

theorem before_of_head (course : Course first episodes last) : ∀ episode ∈ episodes.head?, episode.before = first := by
  intro episode head
  cases course with
  | rest => cases head
  | slice =>
    cases head
    rfl

/-- Some slices in suitable surroundings, in which nobody else touches the bus. -/
theorem undisturbed (count : Nat) (unit : Multiplier) {cx : Context} (suits : cx.Suits) : ∃ episodes last,
    Course unit episodes last ∧ episodes.length = count ∧ episodes.IsChain Respects ∧ ∀ episode ∈ episodes.head?, episode.given = cx := by
  induction count generalizing unit cx with
  | zero => exact ⟨[], unit, .rest unit, rfl, .nil, by simp⟩
  | succ count ih =>
    obtain ⟨⟨after, left⟩, happens⟩ := unit.slice_returns suits
    have again : Context.Suits { cx with bus := left.bus } := ⟨suits.ready, suits.dependent, suits.calm⟩
    obtain ⟨episodes, last, course, counted, respected, given⟩ := ih after again
    have happens : (Episode.mk unit cx after left).Happens := happens
    obtain ⟨action, _, proceeds⟩ := happens_proceeds happens
    refine ⟨⟨unit, cx, after, left⟩ :: episodes, last, .slice happens course, by rw [List.length_cons, counted], ?_, ?_⟩
    · apply List.isChain_cons.mpr ⟨?_, respected⟩
      intro following next latch found
      have same : found? following = some latch := by
        rw [found?, given following next, before_of_head course following next, proceeds.index]
        exact found
      exact ⟨latch, same, rfl, id⟩
    · intro episode head
      cases head
      rfl

/-- A unit that divides 263 by 10. -/
theorem division_obeyed : ∃ taking later last, Course (Multiplier.new 0) (taking :: later) last ∧ later.length = 9 ∧
    Takes taking ⟨#v[1, 7, 1, 10], #v[1, 2, 3, 4], true⟩ ∧ Obeys (Multiplier.new 0) (taking :: later) last := by
  let command : Latch := ⟨#v[1, 7, 1, 10], #v[1, 2, 3, 4], true⟩
  let cx : Context := { Context.level (.coprocessor 0) with bus := (Bus.new 4).modifyCoprocessor 0 fun _ => command }
  have suits : cx.Suits := ⟨Context.level_ready (by decide), by decide, Context.level_calm _⟩
  obtain ⟨episodes, last, course, counted, respected, given⟩ := undisturbed 10 (Multiplier.new 0) suits
  obtain ⟨taking, later, rfl⟩ := List.exists_cons_of_length_eq_add_one counted
  have obeys := commands_obeyed course respected
  have here : taking.given = cx := given taking rfl
  have begins : taking.before = Multiplier.new 0 := before_of_head course taking rfl
  have found : found? taking = some command := by
    rw [found?, here, begins]
    rfl
  have passes : Passes taking := obeys.normal taking List.mem_cons_self (by rw [begins]; rfl) (by rw [here]; rfl)
  have raised : Raised (found? taking) := by
    rw [found]
    rfl
  have happens := course.happens taking List.mem_cons_self
  exact ⟨taking, later, last, course, Nat.succ.inj counted, ⟨found, (accepts_iff happens).mpr ⟨passes, raised⟩⟩, obeys⟩

end Multiplier
end MultiClock
