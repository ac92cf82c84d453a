import MultiClock.Proofs.SliceEffects

/-! The clock that counts seconds, from power-on or from the last command that set it, through any number of ticks. Between its slices
the bus and the other chips may become anything, so the commands come in any pattern. -/

namespace MultiClock
namespace Rtc
variable {clock first last : Rtc} {start elapsed : Nat} {episode : Episode Rtc} {episodes : List (Episode Rtc)}

/-- The clock was at a full second when it showed `start`, and ticked so many times since. -/
structure Counted (start elapsed : Nat) (clock : Rtc) : Prop where
  seconds : clock.seconds.toNat = (start + elapsed / 32768) % 2 ^ 32
  ticks : clock.ticks.toNat = elapsed % 32768

theorem Counted.advanced (counted : clock.Counted start elapsed) : clock.advanced.Counted start (elapsed + 1) := by
  obtain ⟨seconds, ticks⟩ := counted
  have next : (clock.ticks + 1).toNat = elapsed % 32768 + 1 := by
    rw [UInt16.toNat_add, ticks, UInt16.toNat_one]
    omega
  unfold Rtc.advanced
  split
  next full =>
    have full := UInt32.le_iff_toNat_le.mp full
    rw [UInt16.toNat_toUInt32, next] at full
    simp only [frequency, UInt32.reduceToNat] at full
    constructor
    · rw [UInt32.toNat_add, seconds, UInt32.toNat_one]
      omega
    · rw [UInt16.toNat_zero]
      omega
  next short =>
    have short := mt UInt32.le_iff_toNat_le.mpr short
    rw [UInt16.toNat_toUInt32, next] at short
    simp only [frequency, UInt32.reduceToNat] at short
    constructor
    · rw [seconds]
      omega
    · rw [next]
      omega

/-- The number that a command to set the clock carries in its other ports. -/
theorem toNat_setting (latch : Latch) :
    (setting latch).toNat =
      (latch.readInput 1).toNat + 256 * (latch.readInput 2).toNat + 65536 * (latch.readInput 3).toNat := by
  have low := (latch.readInput 1).toNat_lt
  have middle := (latch.readInput 2).toNat_lt
  have high := (latch.readInput 3).toNat_lt
  -- The bytes do not overlap, so laying them over each other adds them up.
  have second := Nat.two_pow_add_eq_or_of_lt low (latch.readInput 2).toNat
  have whole : 2 ^ 8 * (latch.readInput 2).toNat + (latch.readInput 1).toNat < 2 ^ 16 := by omega
  have third := Nat.two_pow_add_eq_or_of_lt whole (latch.readInput 3).toNat
  simp only [setting, UInt32.toNat_or, UInt32.toNat_shiftLeft, UInt8.toNat_toUInt32, UInt32.reduceToNat, Nat.shiftLeft_eq, Nat.reducePow,
    Nat.reduceMod] at second third ⊢
  rw [Nat.mod_eq_of_lt (by omega), Nat.mod_eq_of_lt (by omega), Nat.or_comm (latch.readInput 1).toNat, Nat.mul_comm _ 256,
    Nat.mul_comm _ 65536, ← second, Nat.or_comm, ← third]
  omega

/-- A slice in which the clock ticks. -/
def Ticks (episode : Episode Rtc) : Prop := episode.before.ticked = false ∧ episode.after.ticked = true

instance : DecidablePred Ticks := fun episode =>
  inferInstanceAs (Decidable (episode.before.ticked = false ∧ episode.after.ticked = true))

def ticksIn (episodes : List (Episode Rtc)) : Nat := episodes.countP fun episode => Ticks episode

theorem ticksIn_cons_of_ticks (ticks : Ticks episode) (episodes : List (Episode Rtc)) :
    ticksIn (episode :: episodes) = ticksIn episodes + 1 :=
  List.countP_cons_of_pos (by simpa using ticks)

theorem ticksIn_cons_of_not (quiet : ¬ Ticks episode) (episodes : List (Episode Rtc)) :
    ticksIn (episode :: episodes) = ticksIn episodes :=
  List.countP_cons_of_neg (by simpa using quiet)

theorem ticksIn_append (earlier later : List (Episode Rtc)) : ticksIn (earlier ++ later) = ticksIn earlier + ticksIn later :=
  List.countP_append

/-- A tick at which a command waits in the latch of the clock. -/
structure Takes (episode : Episode Rtc) (command : Latch) : Prop where
  ticks : Ticks episode
  found : episode.given.latch? episode.before.index.toNat = some command
  raised : command.strobe = true

/-- A tick at which a command sets the clock. -/
def Sets (episode : Episode Rtc) : Prop := ∃ command, Takes episode command ∧ command.readInput 0 = setCommand

/-- What a latch shows of the clock once its command is acknowledged. -/
structure Shows (clock : Rtc) (latch : Latch) : Prop where
  acknowledged : latch.strobe = false
  display : ∀ port < 4, (latch.readOutput port).toNat = clock.seconds.toNat / 256 ^ port % 256

/-! One slice of the clock. -/

theorem happens_proceeds (happens : episode.Happens) :
    ∃ action, episode.before.Proceeds episode.given.bus episode.after episode.left.bus action := by
  obtain ⟨action, _, proceeds⟩ := (episode.before.slice_proceeds episode.given).of_ok happens
  exact ⟨action, proceeds⟩

theorem worked_of_ticks (happens : episode.Happens) (ticks : Ticks episode) :
    episode.after = { (episode.before.work episode.given.bus).1 with ticked := true } ∧
      episode.left.bus = (episode.before.work episode.given.bus).2 := by
  obtain ⟨before, given, after, left⟩ := episode
  obtain ⟨action, proceeds⟩ := happens_proceeds happens
  obtain ⟨idle, ticked⟩ := ticks
  simp only at proceeds idle ticked ⊢
  generalize left.bus = bus at proceeds ⊢
  cases proceeds with
  | tick => exact ⟨rfl, rfl⟩
  | stop => exact absurd (idle.symm.trans ticked) Bool.false_ne_true
  | caughtUp => cases ticked

theorem kept_of_not_ticks (happens : episode.Happens) (quiet : ¬ Ticks episode) :
    episode.after = { episode.before with ticked := episode.after.ticked } ∧ episode.left.bus = episode.given.bus := by
  obtain ⟨before, given, after, left⟩ := episode
  obtain ⟨action, proceeds⟩ := happens_proceeds happens
  simp only [Ticks] at proceeds quiet ⊢
  generalize left.bus = bus at proceeds ⊢
  cases proceeds with
  | stop | caughtUp => exact ⟨rfl, rfl⟩
  | tick idle => exact absurd ⟨idle, rfl⟩ quiet

theorem work_index (clock : Rtc) (bus : Bus) : (clock.work bus).1.index = clock.index := by
  unfold work
  split
  · exact clock.index_advanced
  · exact (clock.advanced.obey_index _).trans clock.index_advanced

theorem index_kept (happens : episode.Happens) : episode.after.index = episode.before.index := by
  by_cases ticks : Ticks episode
  · rw [(worked_of_ticks happens ticks).1]
    exact work_index _ _
  · rw [(kept_of_not_ticks happens ticks).1]

theorem obey_of_other {latch : Latch} (other : latch.strobe = true → latch.readInput 0 ≠ setCommand) : clock.obey latch = clock :=
  if_neg fun set => other set.1 set.2

theorem advanced_of_tick (happens : episode.Happens) (ticks : Ticks episode) (unset : ¬ Sets episode) :
    episode.after = { episode.before.advanced with ticked := true } := by
  rw [(worked_of_ticks happens ticks).1]
  unfold work
  split
  next => rfl
  next latch found =>
    have other : latch.strobe = true → latch.readInput 0 ≠ setCommand := fun raised set => unset ⟨latch, ⟨ticks, found, raised⟩, set⟩
    simp only [obey_of_other other]

/-- A tick at which a command sets the clock begins to count anew. -/
theorem counted_of_sets {command : Latch} (happens : episode.Happens) (takes : Takes episode command)
    (set : command.readInput 0 = setCommand) : episode.after.Counted (setting command).toNat 0 := by
  have found : episode.given.bus.coprocessors[episode.before.index.toNat]? = some command := takes.found
  rw [(worked_of_ticks happens takes.ticks).1]
  simp only [work, found, obey, takes.raised, set, and_self, if_true]
  refine ⟨?_, rfl⟩
  rw [Nat.zero_div, Nat.add_zero, Nat.mod_eq_of_lt (setting command).toNat_lt]

theorem readOutput_display (seconds : UInt32) (latch : Latch) (port : Nat) (inside : port < 4) :
    (Latch.readOutput { latch with output := display seconds } port).toNat = seconds.toNat / 256 ^ port % 256 := by
  obtain rfl | rfl | rfl | rfl : port = 0 ∨ port = 1 ∨ port = 2 ∨ port = 3 := by omega
  · change seconds.toUInt8.toNat = _
    simp
  · change (seconds >>> 8).toUInt8.toNat = _
    simp [Nat.shiftRight_eq_div_pow]
  · change (seconds >>> 16).toUInt8.toNat = _
    simp [Nat.shiftRight_eq_div_pow]
  · change (seconds >>> 24).toUInt8.toNat = _
    simp [Nat.shiftRight_eq_div_pow]

theorem shown_of_ticks {latch : Latch} (happens : episode.Happens) (ticks : Ticks episode)
    (found : episode.given.latch? episode.before.index.toNat = some latch) :
    ∃ shown, episode.left.latch? episode.before.index.toNat = some shown ∧ shown.input = latch.input ∧ Shows episode.after shown := by
  have found : episode.given.bus.coprocessors[episode.before.index.toNat]? = some latch := found
  obtain ⟨after, left⟩ := worked_of_ticks happens ticks
  simp only [Context.latch?, left, after, work, found]
  rw [Bus.coprocessors_modifyCoprocessor, if_pos rfl, found]
  exact ⟨_, rfl, rfl, rfl, fun port inside => readOutput_display _ latch port inside⟩

theorem fits_kept {index : UInt8} (happens : episode.Happens) (fits : episode.before.Fits index) : episode.after.Fits index := by
  obtain ⟨_, _, _, kept⟩ := (slice_turns index episode.before episode.given).of_ok happens
  exact kept fits

/-! Any number of slices. -/

theorem course_index (course : Course first episodes last) : ∀ episode ∈ episodes, episode.before.index = first.index := by
  have kept : ∀ episode : Episode Rtc, episode.Happens → episode.before.index = first.index → episode.after.index = first.index :=
    fun episode happens same => (index_kept happens).trans same
  exact (@Course.keeps Rtc _ first last episodes (fun clock => clock.index = first.index) course kept rfl).1

theorem course_counted (course : Course first episodes last) (unset : ∀ episode ∈ episodes, ¬ Sets episode)
    (counted : first.Counted start elapsed) : last.Counted start (elapsed + ticksIn episodes) := by
  induction course generalizing elapsed with
  | rest => exact counted
  | @slice before after last given left episodes happens more ih =>
    obtain ⟨now, rest⟩ := List.forall_mem_cons.mp unset
    by_cases ticks : Ticks ⟨before, given, after, left⟩
    · have next : after.Counted start (elapsed + 1) := by
        have same := advanced_of_tick happens ticks now
        rw [show after = _ from same]
        exact ⟨counted.advanced.seconds, counted.advanced.ticks⟩
      have ends := ih rest next
      rwa [ticksIn_cons_of_ticks ticks, Nat.add_comm _ 1, ← Nat.add_assoc]
    · have next : after.Counted start elapsed := by
        have same := (kept_of_not_ticks happens ticks).1
        rw [show after = _ from same]
        exact ⟨counted.seconds, counted.ticks⟩
      have ends := ih rest next
      rwa [ticksIn_cons_of_not ticks]

theorem Counted.fits (counted : clock.Counted start elapsed) : clock.Fits clock.index := by
  refine ⟨rfl, UInt32.lt_iff_toNat_lt.mpr ?_⟩
  rw [UInt16.toNat_toUInt32, counted.ticks]
  exact Nat.mod_lt elapsed (by norm_num)

/-! In normal execution every slice at the point is a tick, so every number of ticks is reached. -/

theorem ticks_next {index : UInt8} {cx : Context} (fits : clock.Fits index) (suits : cx.Suits) (normal : cx.scheduler.mode = .run)
    (idle : clock.ticked = false) : ∃ after left, Episode.Happens ⟨clock, cx, after, left⟩ ∧ after.ticked = true := by
  obtain ⟨⟨after, left⟩, happens⟩ := slice_returns fits suits
  refine ⟨after, left, happens, ?_⟩
  obtain ⟨action, does, proceeds⟩ := (clock.slice_proceeds cx).of_ok happens
  simp only at does proceeds
  generalize left.bus = bus at proceeds
  cases proceeds with
  | tick => rfl
  | caughtUp ticked => cases idle.symm.trans ticked
  | stop => exact absurd normal does.not_run

theorem caughtUp_next {index : UInt8} {cx : Context} (fits : clock.Fits index) (suits : cx.Suits) (ticked : clock.ticked = true) :
    ∃ after left, Episode.Happens ⟨clock, cx, after, left⟩ ∧ after.ticked = false := by
  obtain ⟨⟨after, left⟩, happens⟩ := slice_returns fits suits
  refine ⟨after, left, happens, ?_⟩
  obtain ⟨action, _, proceeds⟩ := (clock.slice_proceeds cx).of_ok happens
  simp only at proceeds
  generalize left.bus = bus at proceeds
  cases proceeds with
  | caughtUp => rfl
  | stop idle | tick idle => cases ticked.symm.trans idle

/-- The slices find these surroundings, in their order. -/
def Finds (surroundings : Nat → Context) (episodes : List (Episode Rtc)) : Prop :=
  ∀ position episode, episodes[position]? = some episode → episode.given = surroundings position

theorem Finds.cons {surroundings : Nat → Context} (here : episode.given = surroundings 0)
    (finds : Finds (fun n => surroundings (n + 1)) episodes) : Finds surroundings (episode :: episodes) := by
  intro position other found
  cases position with
  | zero =>
    cases found
    exact here
  | succ position => exact finds position other found

theorem ticks_reached {index : UInt8} (surroundings : Nat → Context) (suits : ∀ n, (surroundings n).Suits)
    (normal : ∀ n, (surroundings n).scheduler.mode = .run) (count : Nat) (fits : clock.Fits index) :
    ∃ episodes last, Course clock episodes last ∧ ticksIn episodes = count ∧ Finds surroundings episodes := by
  -- A tick takes two slices at most, since the reference may have to catch up first.
  induction count generalizing surroundings clock with
  | zero => exact ⟨[], clock, .rest clock, rfl, fun _ _ found => by simp at found⟩
  | succ count ih =>
    cases at_work : clock.ticked with
    | false =>
      obtain ⟨after, left, ticks, ticked⟩ := ticks_next fits (suits 0) (normal 0) at_work
      obtain ⟨episodes, last, course, counted, finds⟩ :=
        ih (fun n => surroundings (n + 1)) (fun n => suits (n + 1)) (fun n => normal (n + 1)) (fits_kept ticks fits)
      refine ⟨_, last, .slice ticks course, ?_, .cons rfl finds⟩
      rw [ticksIn_cons_of_ticks ⟨at_work, ticked⟩, counted]
    | true =>
      obtain ⟨middle, between, catches, idle⟩ := caughtUp_next fits (suits 0) at_work
      obtain ⟨after, left, ticks, ticked⟩ := ticks_next (fits_kept catches fits) (suits 1) (normal 1) idle
      obtain ⟨episodes, last, course, counted, finds⟩ := ih (fun n => surroundings (n + 2)) (fun n => suits (n + 2))
        (fun n => normal (n + 2)) (fits_kept ticks (fits_kept catches fits))
      refine ⟨_, last, .slice catches (.slice ticks course), ?_, .cons rfl (.cons rfl finds)⟩
      rw [ticksIn_cons_of_not (fun ticks => Bool.false_ne_true (ticks.1.symm.trans at_work)), ticksIn_cons_of_ticks ⟨idle, ticked⟩, counted]

/-- What holds after some slices of a clock that showed `start` when it was powered on. -/
structure KeepsTime (start : Nat) (index : UInt8) (episodes : List (Episode Rtc)) (clock : Rtc) : Prop where
  unset : (∀ episode ∈ episodes, ¬ Sets episode) → clock.Counted start (ticksIn episodes)
  set : ∀ earlier setting later command a b c, episodes = earlier ++ setting :: later → Takes setting command →
    command.input.toList = [1, a, b, c] → (∀ episode ∈ later, ¬ Sets episode) →
    clock.Counted (a.toNat + 256 * b.toNat + 65536 * c.toNat) (ticksIn episodes - ticksIn (earlier ++ [setting]))
  other : ∀ episode ∈ episodes, ∀ command, Takes episode command → command.readInput 0 ≠ setCommand →
    ∀ start elapsed, episode.before.Counted start elapsed → episode.after.Counted start (elapsed + 1)
  shown : ∀ episode ∈ episodes, Ticks episode → ∀ latch, episode.given.latch? index.toNat = some latch →
    ∃ shown, episode.left.latch? index.toNat = some shown ∧ shown.input = latch.input ∧ Shows episode.after shown
  quiet : ∀ episode ∈ episodes, ¬ Ticks episode → episode.after.seconds = episode.before.seconds ∧
    episode.after.ticks = episode.before.ticks ∧ episode.left.bus = episode.given.bus
  returns : ∀ cx : Context, cx.Suits → ∃ result, Chip.slice clock cx = .ok result
  goes_on : ∀ surroundings : Nat → Context, (∀ n, (surroundings n).Suits) → (∀ n, (surroundings n).scheduler.mode = .run) →
    ∀ count, ∃ more later, Course clock more later ∧ ticksIn more = count ∧ Finds surroundings more

theorem readInput_of_listed {latch : Latch} {command a b c : UInt8} (listed : latch.input.toList = [command, a, b, c]) :
    latch.readInput 0 = command ∧ latch.readInput 1 = a ∧ latch.readInput 2 = b ∧ latch.readInput 3 = c := by
  have read : ∀ position : Fin 4, latch.input.toList[position]? = some latch.input[position] := by
    intro position
    simp
  rw [listed] at read
  exact ⟨(Option.some.inj (read 0)).symm, (Option.some.inj (read 1)).symm, (Option.some.inj (read 2)).symm,
    (Option.some.inj (read 3)).symm⟩

theorem course_set {earlier later : List (Episode Rtc)} {command : Latch} (course : Course first (earlier ++ episode :: later) last)
    (takes : Takes episode command) (set : command.readInput 0 = setCommand) (unset : ∀ episode ∈ later, ¬ Sets episode) :
    last.Counted (setting command).toNat (ticksIn later) := by
  obtain ⟨middle, _, ends⟩ := course.split
  cases ends with
  | slice happens more =>
    have counted := course_counted more unset (counted_of_sets happens takes set)
    rwa [Nat.zero_add] at counted

/-- From power-on the clock keeps time, whatever commands are written to its latch between its slices. -/
theorem time_kept {clock last : Rtc} {seeding : Seeding} {episodes : List (Episode Rtc)}
    (course : Course (Chip.power clock seeding).1 episodes last) :
    KeepsTime (seeding.next16).1.toNat clock.index episodes last := by
  have begins : (Chip.power clock seeding).1.Counted (seeding.next16).1.toNat 0 := by
    refine ⟨?_, rfl⟩
    have small := (seeding.next16).1.toNat_lt
    change (seeding.next16).1.toUInt32.toNat = _
    rw [UInt16.toNat_toUInt32, Nat.zero_div, Nat.add_zero, Nat.mod_eq_of_lt (by omega)]
  have fits : last.Fits _ := (course.keeps (fun _ => fits_kept) begins.fits).2
  constructor
  case unset =>
    intro unset
    have counted := course_counted course unset begins
    rwa [Nat.zero_add] at counted
  case set =>
    intro earlier setting later command a b c listed takes input unset
    obtain ⟨set, low, middle, high⟩ := readInput_of_listed input
    subst listed
    have counted := course_set course takes set unset
    rw [toNat_setting, low, middle, high] at counted
    have passed : ticksIn (earlier ++ setting :: later) = ticksIn (earlier ++ [setting]) + ticksIn later := by
      rw [← ticksIn_append, List.append_assoc]
      rfl
    rwa [passed, Nat.add_sub_cancel_left]
  case other =>
    intro episode member command takes other start elapsed counted
    have unset : ¬ Sets episode := by
      intro both
      obtain ⟨another, taken, set⟩ := both
      cases takes.found.symm.trans taken.found
      exact other set
    rw [advanced_of_tick (course.happens episode member) takes.ticks unset]
    exact ⟨counted.advanced.seconds, counted.advanced.ticks⟩
  case shown =>
    intro episode member ticks latch found
    have same : episode.before.index = clock.index := course_index course episode member
    rw [← same] at found ⊢
    exact shown_of_ticks (course.happens episode member) ticks found
  case quiet =>
    intro episode member quiet
    obtain ⟨same, bus⟩ := kept_of_not_ticks (course.happens episode member) quiet
    rw [same]
    exact ⟨rfl, rfl, bus⟩
  case returns =>
    intro cx suits
    exact slice_returns fits suits
  case goes_on =>
    intro surroundings suits normal count
    exact ticks_reached surroundings suits normal count fits

/-- A clock that is set at its first tick and ticks once more. -/
theorem time_kept_level : ∃ episodes last, Course (Chip.power (Rtc.new 0) ⟨none⟩).1 episodes last ∧ KeepsTime 0 0 episodes last ∧
    ticksIn episodes = 2 ∧ last.Counted (2 + 256 * 3 + 65536 * 4) 1 := by
  let command : Latch := ⟨#v[1, 2, 3, 4], #v[0, 0, 0, 0], true⟩
  let cx := Context.level (.coprocessor 0)
  let asking : Context := { cx with bus := (Bus.new 4).modifyCoprocessor 0 fun _ => command }
  let powered := (Chip.power (Rtc.new 0) ⟨none⟩).1
  have level : cx.Suits := ⟨Context.level_ready (by decide), by decide, Context.level_calm _⟩
  have suits : asking.Suits := ⟨level.ready, level.dependent, level.calm⟩
  have begins : powered.Fits 0 := ⟨rfl, by decide⟩
  have new : powered.ticked = false := rfl
  obtain ⟨first, left₁, sets, ticked⟩ := ticks_next begins suits rfl new
  have fits := fits_kept sets begins
  obtain ⟨second, left₂, catches, idle⟩ := caughtUp_next fits level ticked
  obtain ⟨third, left₃, ticks, again⟩ := ticks_next (fits_kept catches fits) level rfl idle
  have kept := time_kept (.slice sets (.slice catches (.slice ticks (.rest third))))
  have twice : ticksIn [⟨powered, asking, first, left₁⟩, ⟨first, cx, second, left₂⟩, ⟨second, cx, third, left₃⟩] = 2 := by
    simp [ticksIn, Ticks, new, ticked, idle, again]
  have takes : Takes ⟨powered, asking, first, left₁⟩ command := ⟨⟨new, ticked⟩, rfl, rfl⟩
  have unset : ∀ episode ∈ [⟨first, cx, second, left₂⟩, ⟨second, cx, third, left₃⟩], ¬ Sets episode := by
    simp only [List.forall_mem_cons, List.not_mem_nil, false_implies, implies_true, and_true]
    constructor
    · intro both
      obtain ⟨_, taken, _⟩ := both
      exact absurd (ticked.symm.trans taken.ticks.1) (by decide)
    · intro both
      obtain ⟨other, taken, _⟩ := both
      have same : second.index = 0 := (fits_kept catches fits).index
      have found := taken.found
      simp only [same] at found
      cases Option.some.inj (found : some Latch.empty = some other)
      exact Bool.false_ne_true taken.raised
  have counted := kept.set [] _ _ command 2 3 4 rfl takes rfl unset
  have once : ticksIn [Episode.mk powered asking first left₁] = 1 := by simp [ticksIn, Ticks, new, ticked]
  rw [twice, List.nil_append, once] at counted
  exact ⟨_, third, .slice sets (.slice catches (.slice ticks (.rest third))), kept, twice, counted⟩

end Rtc
end MultiClock
