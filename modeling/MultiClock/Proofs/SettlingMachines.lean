import MultiClock.Proofs.MachineCopies
import MultiClock.Proofs.SettlingChips

/-! What a machine makes of any bytes of its size. It takes them, whatever they say, and names the first field that it
refuses. If it refuses none, it writes them tidily again, and tidy bytes are taken for the same machine. -/

namespace MultiClock

open Visit Snapshot

variable {kinds : List CoprocessorKind} {bytes : List UInt8}

namespace Clock

theorem toInt_word {bits : Nat} (small : bits < 2 ^ 64) :
    (Word.ofNat bits : Int64).toInt = if bits < 2 ^ 63 then (bits : Int) else bits - 2 ^ 64 := by
  change (UInt64.ofNat bits).toInt64.toInt = _
  rw [UInt64.toInt64_ofNat', Int64.toInt_ofNat', Int.bmod_def]
  simp only [Int64.size]
  split <;> split <;> omega

/-- A distance that a snapshot may hold, told by the bits of the word. -/
theorem near_word {bits : Nat} (small : bits < 2 ^ 64) : decide ((Word.ofNat bits : Int64).toInt.natAbs ≤ maxDistance) =
    decide (bits ≤ maxDistance ∨ 2 ^ 64 ≤ bits + maxDistance) := by
  rw [decide_eq_decide, toInt_word small]
  simp only [maxDistance]
  split <;> omega

theorem zero_word {bits : Nat} (small : bits < 2 ^ 64) : ((Word.ofNat bits : Int64) == 0) = decide (bits = 0) := by
  rw [Bool.eq_iff_iff, beq_iff_eq, decide_eq_true_eq, ← Int64.toInt_inj, toInt_word small, Int64.toInt_zero]
  split <;> omega

end Clock

/-- The checks of a clock: its frequency, then its distance, then that the reference stands at zero. -/
theorem Snapshot.Part.refusal?_clock (known : UInt32) (reference : Bool) {frequency value : List UInt8}
    (frequency_size : frequency.length = 4) (value_size : value.length = 8) :
    (Part.clock known reference).refusal? (frequency ++ value) =
      (if (Word.ofNat (numeral frequency) : UInt32) == known then none else some "thread frequency" : Option String).or
        ((if decide ((Word.ofNat (numeral value) : Int64).toInt.natAbs ≤ Clock.maxDistance) then none else some "thread clock").or
          (if !reference || (Word.ofNat (numeral value) : Int64) == 0 then none else some "cpu clock")) := by
  have small : numeral value < 2 ^ 64 := by
    have bound := numeral_lt value
    rw [value_size] at bound
    exact bound
  have number : (Word.ofNat (numeral frequency) : UInt32).toNat = numeral frequency := Word.toNat_numeral (α := UInt32) frequency_size
  have first : ((frequency ++ value).drop 0).take 4 = frequency := take_middle [] frequency value 0 4 rfl frequency_size
  have last := take_middle frequency value [] 4 8 frequency_size value_size
  have matched : ((Word.ofNat (numeral frequency) : UInt32) == known) = decide (numeral frequency = known.toNat) := by
    rw [Bool.eq_iff_iff, beq_iff_eq, decide_eq_true_eq, ← UInt32.toNat_inj, number]
  rw [List.append_nil] at last
  rw [Part.clock, Part.refusal?_cons, Part.refusal?_cons, Part.refusal?_cons, Part.refusal?_nil, Option.or_none, Rule.refusal?,
    Rule.refusal?, Rule.refusal?, Rule.content, Rule.content, Rule.content, first, last, matched, Clock.near_word small,
    Clock.zero_word small]

/-- A clock as it was read, repaired. -/
def Clock.repaired (known number : UInt32) (value : Int64) : Clock :=
  ⟨if number == known then number else known, if decide (value.toInt.natAbs ≤ maxDistance) then value else 0⟩

theorem Clock.repaired_frequency (known number : UInt32) (value : Int64) : (repaired known number value).frequency = known := by
  simp only [repaired]
  split
  next same => exact eq_of_beq same
  next => rfl

theorem Thread.serialize_settles {thread rest : Thread} {frequency distance : List UInt8} {number : UInt32} {value : Int64}
    {sane : Prop} (frequency_size : frequency.length = 4) (distance_size : distance.length = 8)
    (number_eq : Word.ofNat (numeral frequency) = number) (value_eq : Word.ofNat (numeral distance) = value)
    (alike : thread.clock.frequency = rest.clock.frequency) (matched : sane → (number == rest.clock.frequency) = true)
    (near : sane → decide (value.toInt.natAbs ≤ Clock.maxDistance) = true) (same : sane → thread.clock.value = value) :
    Settles thread.serialize rest.serialize (frequency ++ distance) (frequency ++ distance)
      ((if number == rest.clock.frequency then none else some "thread frequency" : Option String).or
        (if decide (value.toInt.natAbs ≤ Clock.maxDistance) then none else some "thread clock")) sane
      { thread with clock := .repaired rest.clock.frequency number value }
      { rest with clock := .repaired rest.clock.frequency number value } := by
  subst number_eq value_eq
  have clock : Settles (Serializable.serialize thread.clock) (Serializable.serialize rest.clock) (frequency ++ (distance ++ []))
      (frequency ++ (distance ++ [])) none sane ⟨Word.ofNat (numeral frequency), Word.ofNat (numeral distance)⟩
      ⟨Word.ofNat (numeral frequency), Word.ofNat (numeral distance)⟩ :=
    .bind (.word _ frequency_size fun fine => alike.trans (eq_of_beq (matched fine)).symm)
      (.bind (.word _ distance_size same) (.pure _ _))
  simp only [serialize, alike]
  exact .of_eq (.bind clock (.bind (.require _ _ _ matched) (.bind (.require _ _ _ near) (.pure _ _)))) (by simp) (by simp)
    (by simp; rfl)

namespace Scheduler

theorem serializeThread_settles {base : Scheduler} {id : ThreadId} {rest : Thread} (found : base.thread? id = some rest)
    (length : bytes.length = 12) : ∃ value : Int64, ∀ (last : Scheduler) thread, last.thread? id = some thread →
      thread.clock = ⟨rest.clock.frequency, value⟩ →
      Settles (last.serializeThread id) (base.serializeThread id) bytes bytes
        ((Part.clock rest.clock.frequency (id == .cpu)).refusal? bytes)
        ((Part.clock rest.clock.frequency (id == .cpu)).refusal? bytes = none) last (base.withTime id value) := by
  obtain ⟨frequency, distance, rfl, frequency_size, distance_size⟩ := exists_append 4 8 length
  rw [Part.refusal?_clock _ _ frequency_size distance_size]
  obtain ⟨number, number_eq⟩ : ∃ number, (Word.ofNat (numeral frequency) : UInt32) = number := ⟨_, rfl⟩
  obtain ⟨value, value_eq⟩ : ∃ value, (Word.ofNat (numeral distance) : Int64) = value := ⟨_, rfl⟩
  rw [number_eq, value_eq]
  refine ⟨if id != .cpu || (Clock.repaired rest.clock.frequency number value).value == 0 then
    (Clock.repaired rest.clock.frequency number value).value else 0, fun last thread placed clock => ?_⟩
  -- If nothing is refused, nothing is repaired.
  have kept : ∀ near : decide (value.toInt.natAbs ≤ Clock.maxDistance) = true,
      (Clock.repaired rest.clock.frequency number value).value = value := fun near => if_pos near
  have alike : thread.clock.frequency = rest.clock.frequency := by rw [clock]
  rw [serializeThread, serializeThread]
  simp only [found, placed]
  refine .of_eq (.bind (Thread.serialize_settles frequency_size distance_size number_eq value_eq alike ?_ ?_ ?_)
    (.bind (.require _ _ _ ?_) ((Settles.pure _ _).as ?_ ?_))) ?_ ?_ ?_
  · exact fun fine => (three_accepted_of_none fine).1
  · exact fun fine => (three_accepted_of_none fine).2.1
  · intro fine
    obtain ⟨_, near, standing⟩ := three_accepted_of_none fine
    rw [clock]
    simp only [kept near]
    exact if_pos standing
  · intro fine
    obtain ⟨_, near, standing⟩ := three_accepted_of_none fine
    simp only [kept near]
    exact standing
  · intro fine
    refine modifyThread_same placed ?_
    simp only [Clock.repaired_frequency]
    rw [← clock]
  · refine modifyThread_congr found ?_
    simp [Thread.setTo, Clock.repaired_frequency]
  · simp
  · simp
  · rw [Option.or_none, Option.or_assoc]
    cases near : decide (value.toInt.natAbs ≤ Clock.maxDistance) with
    | true =>
      simp only [kept near]
      rfl
    | false => rfl

end Scheduler

theorem Thread.State.isSome_ofCode? (code : UInt8) : (State.ofCode? code).isSome = decide (numeral [code] < 3) := by
  have number : numeral [code] = code.toNat := by rw [numeral, numeral, Nat.mul_zero, Nat.add_zero]
  rw [number, State.ofCode?]
  split
  next zero =>
    subst zero
    rfl
  next not_zero =>
    split
    next one =>
      subst one
      rfl
    next not_one =>
      split
      next two =>
        subst two
        rfl
      next not_two =>
        simp only [← UInt8.toNat_inj, UInt8.reduceToNat] at not_zero not_one not_two
        simp only [Option.isSome_none]
        exact (decide_eq_false (by omega)).symm

theorem Thread.State.code_of_ofCode? {code : UInt8} {state : State} (known : ofCode? code = some state) : state.code = code := by
  unfold ofCode? at known
  split at known
  next zero =>
    cases known
    exact zero.symm
  next =>
    split at known
    next one =>
      cases known
      exact one.symm
    next =>
      split at known
      next two =>
        cases known
        exact two.symm
      next => cases known

theorem Snapshot.Part.refusal?_state (code : UInt8) :
    Part.state.refusal? [code] = if (Thread.State.ofCode? code).isSome then none else some "thread state" := by
  rw [Thread.State.isSome_ofCode?, Part.state, Part.refusal?_cons, Part.refusal?_nil, Option.or_none]
  rfl

theorem Thread.serializeStack_settles (base : Thread) (length : bytes.length = 1) : ∃ value : Thread,
    Settles value.serializeStack base.serializeStack bytes (Part.state.tidy bytes) (Part.state.refusal? bytes)
      (Part.state.refusal? bytes = none) value value := by
  obtain ⟨code, rfl⟩ := List.length_eq_one_iff.mp length
  rw [Part.refusal?_state]
  have reads : (Serializer.word base.state.code).Takes [code] none code := .byte _ code
  cases known : State.ofCode? code with
  | none =>
    have takes : base.serializeStack.Takes [code] (none.or ((some "thread state").or none)) base := by
      refine reads.bind ?_
      simp only [known]
      exact (Takes.reject _).bind (.pure base)
    exact ⟨base, .of_insane takes (by simp)⟩
  | some state =>
    have same := State.code_of_ofCode? known
    subst same
    have writes : ({ base with state } : Thread).serializeStack.Writes { base with state } [state.code] := by
      refine (byte_writes state.code).bind ?_
      simp only [known]
      exact .pure _
    have takes : base.serializeStack.Reads { base with state } [state.code] := by
      refine reads.reads.bind ?_
      simp only [known]
      exact .pure _
    exact ⟨_, .of_reads takes fun _ => writes⟩

theorem ThreadId.ofIndex?_eq {position : Nat} (named : position < 259) : ∃ id, ofIndex? position = some id ∧ id.index = position := by
  match position with
  | 0 => exact ⟨cpu, rfl, rfl⟩
  | 1 => exact ⟨smp, rfl, rfl⟩
  | 2 => exact ⟨ppu, rfl, rfl⟩
  | position + 3 =>
    refine ⟨coprocessor (UInt8.ofNat position), if_pos (by omega), ?_⟩
    rw [index, UInt8.toNat_ofNat']
    omega

theorem Scheduler.serializeStack_settles (base : Scheduler) (length : bytes.length = 2 + base.threads.size) : ∃ value : Scheduler,
    Settles value.serializeStack base.serializeStack bytes ((Part.stack base.threads.size).tidy bytes)
      ((Part.stack base.threads.size).refusal? bytes) ((Part.stack base.threads.size).refusal? bytes = none) value value := by
  obtain ⟨first, states, rfl, first_size, states_size⟩ := exists_append _ _ length
  obtain ⟨active, flag, rfl⟩ := two_bytes first_size
  have each : ∀ thread ∈ base.threads, ∀ bytes : List UInt8, bytes.length = Part.state.size → ∃ value : Thread,
      Settles value.serializeStack thread.serializeStack bytes (Part.state.tidy bytes) (Part.state.refusal? bytes)
        (Part.state.refusal? bytes = none) value value := fun thread _ _ length => thread.serializeStack_settles length
  have total : states.length = base.threads.size * Part.state.size := by rw [states_size, Part.state, Nat.mul_one]
  obtain ⟨threads, size, settles⟩ := Settles.array each total
  rw [Layout.tidy_replicate rfl total] at settles
  have refusal := Layout.refusal?_stack active flag states
  rw [states_size] at refusal
  obtain ⟨id, named, position⟩ := ThreadId.ofIndex?_eq (Nat.lt_trans active.toNat_lt (by omega))
  rw [show [active, flag] ++ states = active :: flag :: states from rfl, refusal]
  -- The index comes first in the bytes, but it is judged after the states of all threads.
  by_cases inside : active.toNat < base.threads.size
  · have known : ((ThreadId.ofIndex? active.toNat).filter fun id => id.index < threads.size) = some id := by
      rw [named, Option.filter_some, if_pos (decide_eq_true (by omega))]
    have first : UInt8.ofNat id.index = active := by rw [position, UInt8.ofNat_toNat]
    rw [if_pos inside, Option.or_none]
    refine ⟨{ base with
      active := id
      desynchronized := flag != 0
      threads := threads }, ?_⟩
    rw [serializeStack, serializeStack]
    simp only [first]
    refine .of_eq (.bind (.byte _ active) (.bind (.boolean _ flag)
      (.bind settles (?_ : Settles _ _ [] [] none _ _ _)))) ?_ ?_ ?_
    · simp only [known]
      exact .pure _ _
    · simp
    · simp [Part.stack]
    · simp
  · have known : ((ThreadId.ofIndex? active.toNat).filter fun id => id.index < threads.size) = none := by
      rw [named, Option.filter_some, if_neg (by simpa [position, size] using inside)]
    rw [if_neg inside]
    have takes : base.serializeStack.Takes ([active] ++ ([flag] ++ (states ++ [])))
        (none.or (none.or ((Layout.refusal? (List.replicate base.threads.size Part.state) states).or (some "active thread"))))
        { base with active := .cpu, desynchronized := flag != 0, threads := threads } := by
      refine (Takes.byte _ active).bind ((Takes.boolean _ flag).bind (settles.takes.bind ?_))
      simp only [known]
      exact (Takes.reject _).bind (.pure _)
    rw [List.append_nil, Option.none_or, Option.none_or] at takes
    exact ⟨_, .of_insane takes (by simp)⟩

namespace Board

variable {base : Board} {stack : Bool}

/-- The chip of a thread settles, and no other chip changes. -/
theorem serializeChip_settles (fits : base.Fits .any kinds) {id : ThreadId} (present : id ∈ base.threads)
    (length : bytes.length = (Layout.chip kinds stack id).size) : ∃ loaded : Board, loaded.bus = base.bus ∧
      loaded.frame = base.frame ∧ (∀ other, other ≠ id → loaded.SameChip base other) ∧ ∀ last : Board, last.SameChip loaded id →
        Settles (last.serializeChip id stack) (base.serializeChip id stack) bytes ((Layout.chip kinds stack id).tidy bytes)
          ((Layout.chip kinds stack id).refusal? bytes) ((Layout.chip kinds stack id).refusal? bytes = none) last loaded := by
  cases id with
  | cpu =>
    obtain ⟨cpu, settles⟩ := base.cpu.follows stack bytes length
    refine ⟨{ base with cpu }, rfl, rfl, sameChip_cpu cpu, ?_⟩
    rintro ⟨_, _, _, _, _, _⟩ rfl
    exact settles.onto _ _
  | smp =>
    obtain ⟨smp, settles⟩ := base.smp.follows stack bytes length
    refine ⟨{ base with smp }, rfl, rfl, sameChip_smp smp, ?_⟩
    rintro ⟨_, _, _, _, _, _⟩ rfl
    exact settles.onto _ _
  | ppu =>
    obtain ⟨ppu, settles⟩ := base.ppu.follows stack bytes length
    refine ⟨{ base with ppu }, rfl, rfl, sameChip_ppu ppu, ?_⟩
    rintro ⟨_, _, _, _, _, _⟩ rfl
    exact settles.onto _ _
  | coprocessor index =>
    have inside := index_of_threads present
    have found := Array.getElem?_eq_getElem inside
    obtain ⟨kind, listed, fit⟩ := fits.coprocessors index.toNat _ found
    rw [UInt8.ofNat_toNat] at fit
    have parts : Layout.chip kinds stack (.coprocessor index) =
        Part.coprocessor kind :: if stack then [Part.coprocessorWork kind] else [] := by
      rw [Layout.chip, Part.registers, Part.inFlight, listed]
      rfl
    rw [parts] at length ⊢
    obtain ⟨chip, settles⟩ := Coprocessor.follows fit stack bytes length
    refine ⟨base.withCoprocessor index.toNat chip, rfl, rfl, sameChip_coprocessor chip, ?_⟩
    intro last same
    have placed : last.coprocessors[index.toNat]? = some chip := Eq.trans same (getElem?_withCoprocessor chip inside)
    rw [serializeChip_coprocessor placed, serializeChip_coprocessor found]
    exact (settles.onto _ _).as (fun _ => withCoprocessor_same placed) rfl

end Board

theorem Scheduler.frequency_of_wiring {scheduler : Scheduler} (wired : scheduler.shape = wiring kinds) {id : ThreadId}
    {thread : Thread} (found : scheduler.thread? id = some thread) : thread.clock.frequency = frequencyOf kinds id := by
  have placed : (wiring kinds)[id.index]? = some (thread.id, thread.clock.frequency) := by
    rw [← wired, shape, List.getElem?_map, Array.getElem?_toList, show scheduler.threads[id.index]? = some thread from found]
    rfl
  cases id with
  | cpu | smp | ppu =>
    have same := Option.some.inj placed
    exact (congrArg Prod.snd same).symm
  | coprocessor index =>
    simp only [wiring, ThreadId.index, Nat.add_comm 3, List.getElem?_cons_succ, List.getElem?_mapIdx, Option.map_eq_some_iff,
      Prod.mk.injEq] at placed
    obtain ⟨kind, listed, _, frequency⟩ := placed
    rw [← frequency, frequencyOf, listed]
    cases kind <;> rfl

namespace Machine

variable {stack : Bool} {start base : Machine}

theorem Copied.refl (id : ThreadId) (machine : Machine) : Copied machine id machine :=
  ⟨rfl, by cases id <;> rfl⟩

theorem Copied.trans {first second third : Machine} {id : ThreadId} (left : Copied first id second) (right : Copied second id third) :
    Copied first id third := by
  refine ⟨right.1.trans left.1, ?_⟩
  have earlier := left.2
  have later := right.2
  cases id <;> exact later.trans earlier

/-- Only threads of the list may have changed, with their clocks and chips. -/
structure Spares (ids : List ThreadId) (before after : Machine) : Prop where
  bus : after.board.bus = before.board.bus
  frame : after.board.frame = before.board.frame
  others : ∀ id, id ∉ ids → Copied before id after

theorem serializeThread_settles {id : ThreadId} (present : id ∈ threadsOf kinds.length)
    (visiting : Visiting .load .any kinds start base) (length : bytes.length = (Layout.thread kinds stack id).size) :
    ∃ later, Visiting .load .any kinds start later ∧ Spares [id] base later ∧ ∀ last, Copied later id last →
      Settles (serializeThread stack last id) (serializeThread stack base id) bytes ((Layout.thread kinds stack id).tidy bytes)
        ((Layout.thread kinds stack id).refusal? bytes) ((Layout.thread kinds stack id).refusal? bytes = none) last later := by
  have permitted : Permitted .any .load := fun own => nomatch own
  have yields := serializeThread_yields permitted stack present visiting
  obtain ⟨scheduler, board⟩ := base
  obtain ⟨rest, found⟩ := (Scheduler.found_of_wiring visiting.wired).mpr present
  have listed : id ∈ board.threads := by
    rw [Board.threads_eq visiting.fits]
    exact present
  obtain ⟨first, others, rfl, first_size, others_size⟩ := exists_append _ _ length
  obtain ⟨value, clocks⟩ := Scheduler.serializeThread_settles found first_size
  obtain ⟨chips, bus, frame, spared, settles⟩ := Board.serializeChip_settles visiting.fits listed others_size
  have rate := Scheduler.frequency_of_wiring visiting.wired found
  rw [rate] at clocks
  have each : ∀ last, Copied ⟨scheduler.withTime id value, chips⟩ id last →
      Settles (serializeThread stack last id) (serializeThread stack ⟨scheduler, board⟩ id) (first ++ others)
        ((Layout.thread kinds stack id).tidy (first ++ others)) ((Layout.thread kinds stack id).refusal? (first ++ others))
        ((Layout.thread kinds stack id).refusal? (first ++ others) = none) last ⟨scheduler.withTime id value, chips⟩ := by
    rintro ⟨other, last⟩ ⟨clock, chip⟩
    rw [show Scheduler.thread? _ id = _ from Scheduler.thread?_withTime value id, if_pos rfl, found] at clock
    obtain ⟨thread, placed, clock⟩ := Option.map_eq_some_iff.mp clock
    rw [Layout.thread, Layout.tidy_cons first_size, Layout.refusal?_cons first_size]
    have clock : thread.clock = ⟨frequencyOf kinds id, value⟩ := clock.trans (congrArg (Clock.mk · value) rate)
    exact .bind ((clocks other thread placed clock).mono fun fine => (Option.or_eq_none_iff.mp fine).1)
      (((settles last chip).mono fun fine => (Option.or_eq_none_iff.mp fine).2).onto _ _)
  refine ⟨⟨scheduler.withTime id value, chips⟩, ((each _ (.refl id _)).takes.post yields).1, ⟨bus, frame, ?_⟩, each⟩
  intro other apart
  have apart : other ≠ id := fun same => apart (List.mem_singleton.mpr same)
  refine ⟨?_, spared other apart⟩
  rw [show Scheduler.thread? _ other = _ from Scheduler.thread?_withTime value other, if_neg (Ne.symm apart)]

/-- Threads settle one after the other. A writer that has the clocks and the chips that were taken keeps them. -/
theorem threads_settle {ids : List ThreadId} (distinct : ids.Nodup) (present : ∀ id ∈ ids, id ∈ threadsOf kinds.length)
    (visiting : Visiting .load .any kinds start base)
    (length : bytes.length = (Layout.size (ids.flatMap (Layout.thread kinds stack)))) :
    ∃ later, Visiting .load .any kinds start later ∧ Spares ids base later ∧ ∀ last, (∀ id ∈ ids, Copied later id last) →
      Settles (ids.foldlM (serializeThread stack) last) (ids.foldlM (serializeThread stack) base) bytes
        (Layout.tidy (ids.flatMap (Layout.thread kinds stack)) bytes)
        (Layout.refusal? (ids.flatMap (Layout.thread kinds stack)) bytes)
        (Layout.refusal? (ids.flatMap (Layout.thread kinds stack)) bytes = none) last later := by
  -- No thread comes twice, so what one visit reads is still there after all others.
  induction ids generalizing base bytes with
  | nil =>
    rw [List.length_eq_zero_iff.mp length]
    exact ⟨base, visiting, ⟨rfl, rfl, fun id _ => .refl id base⟩, fun last _ => .pure last base⟩
  | cons id ids ih =>
    obtain ⟨absent, distinct⟩ := List.nodup_cons.mp distinct
    rw [List.flatMap_cons, Layout.size_append] at length
    obtain ⟨first, others, rfl, first_size, others_size⟩ := exists_append _ _ length
    obtain ⟨middle, visiting, spares, here⟩ := serializeThread_settles (present id List.mem_cons_self) visiting first_size
    obtain ⟨later, visiting, keeps, there⟩ :=
      ih distinct (fun other member => present other (List.mem_cons_of_mem id member)) visiting others_size
    refine ⟨later, visiting, ⟨keeps.bus.trans spares.bus, keeps.frame.trans spares.frame, ?_⟩, ?_⟩
    · intro other apart
      have not_here : other ∉ [id] := fun member => apart (List.mem_cons.mpr (.inl (List.mem_singleton.mp member)))
      have not_there : other ∉ ids := fun member => apart (List.mem_cons_of_mem id member)
      exact (spares.others other not_here).trans (keeps.others other not_there)
    · intro last copied
      have settled : Copied middle id last := (keeps.others id absent).trans (copied id List.mem_cons_self)
      rw [List.flatMap_cons, Layout.tidy_append first_size, Layout.refusal?_append first_size, List.foldlM_cons, List.foldlM_cons]
      exact .bind ((here last settled).mono fun fine => (Option.or_eq_none_iff.mp fine).1)
        ((there last fun other member => copied other (List.mem_cons_of_mem id member)).mono fun fine =>
          (Option.or_eq_none_iff.mp fine).2)

theorem nodup_threadsOf (few : kinds.length ≤ Cartridge.maxCoprocessors) : (threadsOf kinds.length).Nodup := by
  simp only [Cartridge.maxCoprocessors] at few
  have apart : ((List.range kinds.length).map fun i => ThreadId.coprocessor (UInt8.ofNat i)).Nodup := by
    refine List.pairwise_map.mpr (List.nodup_range.imp_of_mem ?_)
    intro i j inside other different same
    have number := congrArg UInt8.toNat (ThreadId.coprocessor.inj same)
    rw [UInt8.toNat_ofNat', UInt8.toNat_ofNat'] at number
    rw [List.mem_range] at inside other
    omega
  simp [threadsOf, apart]

/-- What follows the memory: all threads, and then, unless the snapshot is portable, how they are suspended. -/
def serializeThreads (portable : Bool) (machine : Machine) : Visit Machine := do
  let ⟨scheduler, board⟩ ← machine.board.threads.foldlM (serializeThread !portable) machine
  if portable then return ⟨scheduler, board⟩
  return ⟨← scheduler.serializeStack, board⟩

theorem serialize_eq (portable : Bool) (machine : Machine) : machine.serialize portable = (do
    let frame ← Serializer.word machine.board.frame
    let bus ← Serializable.serialize machine.board.bus
    serializeThreads portable ⟨machine.scheduler, { machine.board with bus, frame }⟩) := rfl

theorem serializeThreads_settle (few : kinds.length ≤ Cartridge.maxCoprocessors) {portable : Bool} {layout : Layout}
    (visiting : Visiting .load .any kinds start base) (parts : layout = (threadsOf kinds.length).flatMap
      (Layout.thread kinds !portable) ++ if portable then [] else [Part.stack (3 + kinds.length)])
    (length : bytes.length = layout.size) : ∃ later, later.board.bus = base.board.bus ∧ later.board.frame = base.board.frame ∧
      Settles (later.serializeThreads portable) (base.serializeThreads portable) bytes (layout.tidy bytes)
        (layout.refusal? bytes) (layout.refusal? bytes = none) later later := by
  subst parts
  rw [Layout.size_append] at length
  obtain ⟨threads, rest, rfl, threads_size, rest_size⟩ := exists_append _ _ length
  rw [Layout.tidy_append threads_size, Layout.refusal?_append threads_size]
  obtain ⟨later, passed, spares, settles⟩ := threads_settle (nodup_threadsOf few) (fun _ => id) visiting threads_size
  rw [serializeThreads, Board.threads_eq visiting.fits]
  -- Only an instant snapshot goes on behind the threads, with the states of the scheduler.
  cases portable with
  | true =>
    refine ⟨later, spares.bus, spares.frame, ?_⟩
    rw [List.length_eq_zero_iff.mp rest_size, serializeThreads, Board.threads_eq passed.fits]
    have settled := (settles later fun id _ => .refl id later).onto id id
    refine (settled.of_eq ?_ ?_ ?_).mono ?_
    · exact (List.append_nil _).symm
    · exact (List.append_nil _).symm
    · exact Option.or_none.symm
    · exact fun fine => (Option.or_eq_none_iff.mp fine).1
  | false =>
    obtain ⟨scheduler, board⟩ := later
    have size : scheduler.threads.size = 3 + kinds.length := Scheduler.size_of_wiring passed.wired
    have known_size : rest.length = 2 + scheduler.threads.size := size ▸ rest_size
    obtain ⟨last, stacked⟩ := scheduler.serializeStack_settles known_size
    have restacked := stacked.takes.post scheduler.serializeStack_yields
    have copied : ∀ id, Copied ⟨scheduler, board⟩ id ⟨last, board⟩ := by
      intro id
      exact ⟨restacked.clocks id, (Copied.refl id ⟨scheduler, board⟩).2⟩
    refine ⟨⟨last, board⟩, spares.bus, spares.frame, ?_⟩
    rw [serializeThreads, Board.threads_eq (show board.Fits .any kinds from passed.fits)]
    have stack_size : rest.length = (Part.stack (3 + kinds.length)).size := rest_size
    rw [size, ← Layout.tidy_single stack_size, ← Layout.refusal?_single stack_size] at stacked
    exact .bind ((settles ⟨last, board⟩ fun id _ => copied id).mono fun fine => (Option.or_eq_none_iff.mp fine).1)
      ((stacked.onto _ _).mono fun fine => (Option.or_eq_none_iff.mp fine).2)

/-- A machine takes any bytes of its size. -/
theorem serialize_follows (few : kinds.length ≤ Cartridge.maxCoprocessors) (portable : Bool) (sound : base.Sound .any kinds) :
    Follows (·.serialize portable) base (Layout.body kinds portable) := by
  intro bytes length
  obtain ⟨scheduler, ⟨bus, cpu, smp, ppu, coprocessors, frame⟩⟩ := base
  have latches : bus.coprocessors.size = kinds.length := sound.fits.latches
  have parts : Layout.body kinds portable = [Part.plain 8] ++
      ((Part.plain 0x2000 :: Part.latch :: List.replicate bus.coprocessors.size Part.latch) ++
        ((threadsOf kinds.length).flatMap (Layout.thread kinds !portable) ++
          if portable then [] else [Part.stack (3 + kinds.length)])) := by
    rw [latches]
    rfl
  rw [parts] at length ⊢
  rw [Layout.size_append, Layout.size_append] at length
  obtain ⟨count, rest, rfl, count_size, length⟩ := exists_append _ _ length
  obtain ⟨memory, threads, rfl, memory_size, threads_size⟩ := exists_append _ _ length
  rw [Layout.tidy_append count_size, Layout.tidy_append memory_size, Layout.refusal?_append count_size,
    Layout.refusal?_append memory_size, Layout.tidy_single count_size, Layout.refusal?_single count_size]
  obtain ⟨number, counted⟩ : ∃ number : UInt64, ∀ sane, Settles (Serializer.word number) (Serializer.word frame) count count none
      sane number number := ⟨_, fun _ => .word _ count_size fun _ => rfl⟩
  obtain ⟨later, settled⟩ := Bus.follows bus memory memory_size
  have same : later.coprocessors.size = bus.coprocessors.size := settled.takes.post bus.yields
  have fits : Board.Fits .any kinds ⟨later, cpu, smp, ppu, coprocessors, number⟩ :=
    ⟨sound.fits.cpu, sound.fits.smp, sound.fits.ppu, same.trans latches, sound.fits.chips, sound.fits.coprocessors⟩
  have visiting : Visiting .load .any kinds ⟨scheduler, ⟨later, cpu, smp, ppu, coprocessors, number⟩⟩
      ⟨scheduler, ⟨later, cpu, smp, ppu, coprocessors, number⟩⟩ :=
    ⟨⟨rfl, rfl, rfl, sound.wired, sound.reference, fits, fun _ _ => rfl, fun _ _ => id, fun _ _ => id⟩, rfl, rfl⟩
  obtain ⟨⟨last, ⟨_, cpu, smp, ppu, coprocessors, _⟩⟩, bus_eq, frame_eq, settles⟩ :=
    serializeThreads_settle few visiting rfl threads_size
  cases bus_eq
  cases frame_eq
  refine ⟨⟨last, ⟨later, cpu, smp, ppu, coprocessors, number⟩⟩, ?_⟩
  simp only [serialize_eq]
  exact .bind (counted _) ((Settles.bind (settled.mono fun fine => (Option.or_eq_none_iff.mp fine).1)
    (settles.mono fun fine => (Option.or_eq_none_iff.mp fine).2)).mono fun fine => (Option.or_eq_none_iff.mp fine).2)

end Machine
end MultiClock
