import MultiClock.Proofs.MachineCopies
import MultiClock.Proofs.PowerOn

/-! A load depends on the bytes alone. Readers that differ in no more than the registers that they read, such as
two machines right after power-on, read the same from any bytes, valid or not. -/

namespace MultiClock

/-- Reading, both visitors move on alike, to values that are related. -/
def Visit.Alike (related : α → α → Prop) (first second : Visit α) : Prop :=
  ∀ s : Serializer, s.mode = .load →
    related (first s).1 (second s).1 ∧ (first s).2 = (second s).2 ∧ (first s).2.mode = .load

open Visit

namespace Visit.Alike
variable {related : α → α → Prop} {first second : Visit α}

theorem pure {one other : α} (holds : related one other) : Alike related (pure one) (pure other) :=
  fun _ reading => ⟨holds, rfl, reading⟩

theorem bind {next follow : α → Visit β} {final : β → β → Prop} (alike : Alike related first second)
    (rest : ∀ one other, related one other → Alike final (next one) (follow other)) :
    Alike final (first >>= next) (second >>= follow) := by
  intro s reading
  obtain ⟨holds, same, still⟩ := alike s reading
  have later := rest _ _ holds (first s).2 still
  rw [bind_apply, bind_apply, ← same]
  exact later

/-- What is read is the same, so the rest may use it freely. -/
theorem next {next follow : α → Visit β} {final : β → β → Prop} (alike : Alike Eq first second)
    (rest : ∀ value, Alike final (next value) (follow value)) : Alike final (first >>= next) (second >>= follow) :=
  alike.bind fun value _ same => same ▸ rest value

theorem of_yields {visit : Visit α} {size : Nat} {post : α → Prop} (yields : Yields .load size visit post) :
    Alike Eq visit visit := fun s reading => ⟨rfl, rfl, (yields s reading).2.2⟩

theorem word [Word α] (one other : α) : Alike Eq (Serializer.word one) (Serializer.word other) := by
  intro s reading
  simp only [Serializer.word, reading]
  exact ⟨trivial, trivial, trivial⟩

theorem bytes (one other : Vector UInt8 n) : Alike Eq (Serializer.bytes one) (Serializer.bytes other) := by
  intro s reading
  rw [bytes_load reading, bytes_load reading]
  exact ⟨rfl, rfl, reading⟩

theorem boolean (one other : Bool) : Alike Eq (Serializer.boolean one) (Serializer.boolean other) :=
  (word _ _).next fun _ _ reading => ⟨(if_pos reading).trans (if_pos reading).symm, rfl, reading⟩

theorem list {visit : α → Visit α} {ones others : List α} (length : ones.length = others.length)
    (item : ∀ one other, Alike Eq (visit one) (visit other)) : Alike Eq (ones.mapM visit) (others.mapM visit) := by
  induction ones generalizing others with
  | nil =>
    rw [List.length_eq_zero_iff.mp length.symm]
    exact pure rfl
  | cons one ones ih =>
    cases others with
    | nil => cases length
    | cons other others =>
      rw [List.mapM_cons, List.mapM_cons]
      exact (item one other).next fun _ => (ih (Nat.succ.inj length)).next fun _ => pure rfl

theorem of_map {f : α → β} (injective : ∀ a b, f a = f b → a = b) (alike : Alike Eq (f <$> first) (f <$> second)) :
    Alike Eq first second := fun s reading =>
  have ⟨same, moved, still⟩ := alike s reading
  ⟨injective _ _ same, moved, still⟩

theorem array {visit : α → Visit α} {ones others : Array α} (size : ones.size = others.size)
    (item : ∀ one other, Alike Eq (visit one) (visit other)) : Alike Eq (ones.mapM visit) (others.mapM visit) := by
  refine of_map (f := Array.toList) (fun _ _ => Array.ext') ?_
  rw [Array.toList_mapM, Array.toList_mapM]
  exact list size item

theorem vector [Serializable α] (item : ∀ one other : α, Alike Eq (Serializable.serialize one) (Serializable.serialize other))
    (ones others : Vector α n) : Alike Eq (Serializer.array ones) (Serializer.array others) := by
  refine of_map (f := Vector.toArray) (fun _ _ => Vector.toArray_inj.mp) ?_
  rw [Serializer.array, Serializer.array, Vector.toArray_mapM, Vector.toArray_mapM]
  exact array (ones.size_toArray.trans others.size_toArray.symm) item

/-- Readers pass over items one after the other. What was read once is not lost to later items. -/
theorem fold {visit : β → ι → Visit β} (holds : β → β → Prop) (done : ι → β → β → Prop) (items : List ι)
    (step : ∀ item ∈ items, ∀ one other, holds one other → Alike (fun later last => holds later last ∧ done item later last ∧
      ∀ earlier, done earlier one other → done earlier later last) (visit one item) (visit other item)) {one other : β}
    (held : holds one other) : Alike (fun later last => holds later last ∧ (∀ item ∈ items, done item later last) ∧
      ∀ earlier, done earlier one other → done earlier later last) (items.foldlM visit one) (items.foldlM visit other) := by
  induction items generalizing one other with
  | nil => exact pure ⟨held, by simp, fun _ => id⟩
  | cons item items ih =>
    rw [List.foldlM_cons, List.foldlM_cons]
    refine (step item List.mem_cons_self one other held).bind ?_
    rintro middle between ⟨held, here, kept⟩
    have rest := ih (fun next member => step next (List.mem_cons_of_mem item member)) held
    intro s reading
    obtain ⟨⟨held, others, keeps⟩, moved⟩ := rest s reading
    refine ⟨⟨held, fun next member => ?_, fun earlier before => keeps earlier (kept earlier before)⟩, moved⟩
    cases member with
    | head => exact keeps item here
    | tail _ member => exact others next member

end Visit.Alike

namespace Latch

theorem alike (one other : Latch) : Alike Eq (Serializable.serialize one) (Serializable.serialize other) :=
  .next (.bytes _ _) fun _ => .next (.bytes _ _) fun _ => .next (.boolean _ _) fun _ => .pure rfl

end Latch

theorem Bus.alike {one other : Bus} (latches : one.coprocessors.size = other.coprocessors.size) :
    Alike Eq (Serializable.serialize one) (Serializable.serialize other) :=
  .next (.bytes _ _) fun _ => .next (Latch.alike _ _) fun _ => .next (.array latches Latch.alike) fun _ => .pure rfl

/-- Chips are read alike if their registers are, and their continuations whatever the registers are. -/
theorem Chip.visit_alike {χ : Type} [Chip χ] {stack : Bool} {one other : χ}
    (registers : Alike Eq (Chip.serialize one) (Chip.serialize other))
    (continuation : ∀ later : χ, Alike Eq (Chip.serializeStack later) (Chip.serializeStack later)) :
    Alike Eq (Chip.visit stack one) (Chip.visit stack other) := by
  refine registers.next fun later => ?_
  cases stack with
  | false => exact .pure rfl
  | true => exact continuation later

theorem Cpu.alike {stack : Bool} {one other : Cpu} (count : one.coprocessors = other.coprocessors)
    (work : one.continuation = other.continuation) : Alike Eq (Chip.visit stack one) (Chip.visit stack other) := by
  have registers : Alike Eq (Chip.serialize one) (Chip.serialize other) := by
    simp only [Chip.serialize, serialize]
    refine .next (.word _ _) fun _ => .next (.word _ _) fun _ => .next (.word _ _) fun _ => .next (.word _ _) fun _ =>
      .next (.word _ _) fun _ => .next (.word _ _) fun _ => .next (.of_yields (.require _ _ _ _)) fun _ => .pure ?_
    rw [count, work]
  exact Chip.visit_alike registers fun _ => .next (.of_yields (Continuation.yields _)) fun _ => .pure rfl

theorem Smp.alike {stack : Bool} {one other : Smp} (work : one.continuation = other.continuation) :
    Alike Eq (Chip.visit stack one) (Chip.visit stack other) := by
  have registers : Alike Eq (Chip.serialize one) (Chip.serialize other) := by
    simp only [Chip.serialize, serialize]
    refine .next (.bytes _ _) fun _ => .next (.word _ _) fun _ => .next (.word _ _) fun _ => .next (.word _ _) fun _ =>
      .next (.word _ _) fun _ => .next (.vector .word _ _) fun _ => .next (.word _ _) fun _ =>
      .next (.of_yields (.require _ _ _ _)) fun _ => .next (.of_yields (.require _ _ _ _)) fun _ => .pure ?_
    rw [work]
  exact Chip.visit_alike registers fun _ => .next (.of_yields (Continuation.yields _)) fun _ => .pure rfl

theorem Ppu.picture_alike (one other : Framebuffer) : Alike Eq (Serializable.serialize one) (Serializable.serialize other) :=
  .next (.vector (fun _ _ => .next (.word _ _) fun _ => .pure rfl) _ _) fun _ => .pure rfl

theorem Ppu.alike {stack : Bool} {one other : Ppu} (work : one.continuation = other.continuation) :
    Alike Eq (Chip.visit stack one) (Chip.visit stack other) := by
  have registers : Alike Eq (Chip.serialize one) (Chip.serialize other) := by
    simp only [Chip.serialize, serialize]
    refine .next (.word _ _) fun _ => .next (.word _ _) fun _ => .next (picture_alike _ _) fun _ =>
      .next (.of_yields (.require _ _ _ _)) fun _ => .pure ?_
    rw [work]
  exact Chip.visit_alike registers fun _ => .next (.of_yields (Continuation.yields _)) fun _ => .pure rfl

/-- Coprocessors that differ in no more than the registers that a load reads. -/
def Coprocessor.Akin : Coprocessor → Coprocessor → Prop
  | multiplier one, multiplier other => one.index = other.index ∧ one.continuation = other.continuation
  | rtc one, rtc other => one.index = other.index ∧ one.ticked = other.ticked
  | multiplier _, rtc _ | rtc _, multiplier _ => False

theorem Coprocessor.Akin.refl (chip : Coprocessor) : chip.Akin chip := by
  cases chip <;> exact ⟨rfl, rfl⟩

theorem Multiplier.alike {stack : Bool} {one other : Multiplier} (index : one.index = other.index)
    (work : one.continuation = other.continuation) : Alike Eq (Chip.visit stack one) (Chip.visit stack other) := by
  have registers : Alike Eq (Chip.serialize one) (Chip.serialize other) := by
    simp only [Chip.serialize, serialize]
    refine .next (.bytes _ _) fun _ => .next (.word _ _) fun _ => .pure ?_
    rw [index, work]
  exact Chip.visit_alike registers fun _ => .next (.of_yields (Continuation.yields _)) fun _ => .pure rfl

theorem Rtc.alike {stack : Bool} {one other : Rtc} (index : one.index = other.index) (work : one.ticked = other.ticked) :
    Alike Eq (Chip.visit stack one) (Chip.visit stack other) := by
  have registers : Alike Eq (Chip.serialize one) (Chip.serialize other) := by
    simp only [Chip.serialize, serialize]
    refine .next (.word _ _) fun _ => .next (.word _ _) fun _ => .next (.of_yields (.require _ _ _ _)) fun _ => .pure ?_
    rw [index, work]
  exact Chip.visit_alike registers fun _ => .next (.boolean _ _) fun _ => .pure rfl

theorem Coprocessor.alike {stack : Bool} {one other : Coprocessor} (akin : one.Akin other) :
    Alike Eq (Chip.visit stack one) (Chip.visit stack other) := by
  cases one with
  | multiplier one =>
    cases other with
    | multiplier other =>
      rw [visit_multiplier, visit_multiplier]
      exact (Multiplier.alike akin.1 akin.2).next fun _ => .pure rfl
    | rtc => exact akin.elim
  | rtc one =>
    cases other with
    | multiplier => exact akin.elim
    | rtc other =>
      rw [visit_rtc, visit_rtc]
      exact (Rtc.alike akin.1 akin.2).next fun _ => .pure rfl

namespace Board

/-- Boards that differ in no more than the registers that a load reads. -/
structure Akin (one other : Board) : Prop where
  bus : one.bus = other.bus
  frame : one.frame = other.frame
  count : one.cpu.coprocessors = other.cpu.coprocessors
  cpu : one.cpu.continuation = other.cpu.continuation
  smp : one.smp.continuation = other.smp.continuation
  ppu : one.ppu.continuation = other.ppu.continuation
  chips : one.coprocessors.size = other.coprocessors.size
  coprocessors : ∀ (position : Nat) first second, one.coprocessors[position]? = some first →
    other.coprocessors[position]? = some second → first.Akin second

variable {one other : Board} {stack : Bool}

/-- A chip that was read is the same on both, and the others are as they were. -/
theorem serializeChip_alike (akin : one.Akin other) {id : ThreadId} (present : id ∈ one.threads) :
    Alike (fun later last => later.Akin last ∧ later.coprocessors.size = one.coprocessors.size ∧ later.SameChip last id ∧
      ∀ earlier, one.SameChip other earlier → later.SameChip last earlier)
      (one.serializeChip id stack) (other.serializeChip id stack) := by
  cases id with
  | cpu =>
    refine .next (Cpu.alike akin.count akin.cpu) fun cpu => .pure ⟨?_, rfl, rfl, fun _ => ?_⟩
    · exact ⟨akin.bus, akin.frame, rfl, rfl, akin.smp, akin.ppu, akin.chips, akin.coprocessors⟩
    · exact SameChip.swap (show SameChip _ _ .cpu from rfl) (sameChip_cpu cpu) (sameChip_cpu cpu)
  | smp =>
    refine .next (Smp.alike akin.smp) fun smp => .pure ⟨?_, rfl, rfl, fun _ => ?_⟩
    · exact ⟨akin.bus, akin.frame, akin.count, akin.cpu, rfl, akin.ppu, akin.chips, akin.coprocessors⟩
    · exact SameChip.swap (show SameChip _ _ .smp from rfl) (sameChip_smp smp) (sameChip_smp smp)
  | ppu =>
    refine .next (Ppu.alike akin.ppu) fun ppu => .pure ⟨?_, rfl, rfl, fun _ => ?_⟩
    · exact ⟨akin.bus, akin.frame, akin.count, akin.cpu, akin.smp, rfl, akin.chips, akin.coprocessors⟩
    · exact SameChip.swap (show SameChip _ _ .ppu from rfl) (sameChip_ppu ppu) (sameChip_ppu ppu)
  | coprocessor index =>
    have inside := index_of_threads present
    have there : index.toNat < other.coprocessors.size := akin.chips ▸ inside
    have found := Array.getElem?_eq_getElem inside
    have placed := Array.getElem?_eq_getElem there
    rw [serializeChip_coprocessor found, serializeChip_coprocessor placed]
    have same_chip (chip : Coprocessor) :
        (one.withCoprocessor index.toNat chip).SameChip (other.withCoprocessor index.toNat chip) (.coprocessor index) :=
      (getElem?_withCoprocessor chip inside).trans (getElem?_withCoprocessor chip there).symm
    refine .next (Coprocessor.alike (akin.coprocessors _ _ _ found placed)) fun chip => .pure ⟨?_, ?_, ?_, fun _ => ?_⟩
    · refine ⟨akin.bus, akin.frame, akin.count, akin.cpu, akin.smp, akin.ppu, ?_, fun position first second here alike => ?_⟩
      · simpa [withCoprocessor] using akin.chips
      · simp only [withCoprocessor, Array.getElem?_setIfInBounds] at here alike
        split at here
        next same =>
          subst same
          rw [if_pos rfl, if_pos there] at alike
          cases here
          cases alike
          exact .refl chip
        next different =>
          rw [if_neg different] at alike
          exact akin.coprocessors position first second here alike
    · simp [withCoprocessor]
    · exact same_chip chip
    · exact (same_chip chip).swap (sameChip_coprocessor chip) (sameChip_coprocessor chip)

end Board

namespace Machine

variable {one other : Machine} {stack portable : Bool} {kinds : List CoprocessorKind}

/-- Machines that differ in no more than the registers that a load reads, and have so many coprocessors. -/
structure Akin (kinds : List CoprocessorKind) (one other : Machine) : Prop where
  scheduler : one.scheduler = other.scheduler
  board : one.board.Akin other.board
  chips : one.board.coprocessors.size = kinds.length

theorem serializeThread_alike (akin : Akin kinds one other) {id : ThreadId} (present : id ∈ threadsOf kinds.length) :
    Alike (fun later last => Akin kinds later last ∧ later.board.SameChip last.board id ∧
      ∀ earlier, one.board.SameChip other.board earlier → later.board.SameChip last.board earlier)
      (serializeThread stack one id) (serializeThread stack other id) := by
  obtain ⟨scheduler, board⟩ := one
  obtain ⟨rest, chips⟩ := other
  obtain ⟨rfl, akin, size⟩ := akin
  simp only at akin size
  have listed : id ∈ board.threads := by
    rw [Board.threads, size]
    exact present
  have timed : Alike Eq (scheduler.serializeThread id) (scheduler.serializeThread id) := by
    cases found : scheduler.thread? id with
    | none =>
      rw [Scheduler.serializeThread, found]
      exact .pure rfl
    | some thread => exact .of_yields (Scheduler.serializeThread_yields found)
  refine timed.next fun later => (Board.serializeChip_alike akin listed).bind fun board last alike => .pure ?_
  exact ⟨⟨rfl, alike.1, alike.2.1.trans size⟩, alike.2.2⟩

theorem serialize_alike (few : kinds.length ≤ Cartridge.maxCoprocessors) (scheduler : one.scheduler = other.scheduler)
    (latches : one.board.bus.coprocessors.size = other.board.bus.coprocessors.size)
    (akin : ∀ bus frame, Akin kinds ⟨one.scheduler, { one.board with bus, frame }⟩ ⟨other.scheduler, { other.board with bus, frame }⟩) :
    Alike Eq (one.serialize portable) (other.serialize portable) := by
  obtain ⟨scheduler, ⟨bus, cpu, smp, ppu, coprocessors, frame⟩⟩ := one
  obtain ⟨rest, ⟨memory, first, second, third, others, count⟩⟩ := other
  simp only [serialize]
  refine .next (.word _ _) fun frame => .next (Bus.alike latches) fun bus => ?_
  have start := akin bus frame
  have threads : (⟨bus, cpu, smp, ppu, coprocessors, frame⟩ : Board).threads = threadsOf kinds.length := by
    rw [Board.threads, threadsOf, start.chips]
  have alike : (⟨bus, first, second, third, others, frame⟩ : Board).threads = threadsOf kinds.length := by
    rw [Board.threads, threadsOf, ← start.board.chips, start.chips]
  rw [threads, alike]
  have every := Alike.fold (Akin kinds)
    (fun id later last => later.board.SameChip last.board id) (threadsOf kinds.length)
    (fun id present later last held => show Alike _ (serializeThread (!portable) later id) (serializeThread (!portable) last id) from
      serializeThread_alike held present) start
  refine every.bind ?_
  rintro later last ⟨held, same, _⟩
  obtain ⟨later, board⟩ := later
  obtain ⟨last, chips⟩ := last
  obtain ⟨rfl, held, size⟩ := held
  have alike : board = chips :=
    Board.ext_of_chips few size (held.chips ▸ size) held.bus held.frame fun id present => same id present
  subst alike
  cases portable with
  | true => exact .pure rfl
  | false => exact (Alike.of_yields later.serializeStack_yields).next fun _ => .pure rfl

/-- Chips of one kind at one latch that are without work are akin. -/
theorem coprocessors_akin (few : kinds.length ≤ Cartridge.maxCoprocessors) (fresh : one.Fresh kinds) (alike : other.Fresh kinds)
    {position : Nat} {first second : Coprocessor} (found : one.board.coprocessors[position]? = some first)
    (placed : other.board.coprocessors[position]? = some second) : first.Akin second := by
  have inside := (Array.getElem?_eq_some_iff.mp found).1
  rw [fresh.sound.fits.chips] at inside
  have number : (UInt8.ofNat position).toNat = position := by
    simp only [Cartridge.maxCoprocessors] at few
    rw [UInt8.toNat_ofNat']
    omega
  obtain ⟨kind, listed, fit⟩ := fresh.sound.fits.coprocessors position first found
  obtain ⟨same, again, matched⟩ := alike.sound.fits.coprocessors position second placed
  cases listed.symm.trans again
  have rests := Board.coprocessor_rested (number.symm ▸ found) (fresh.rested (.coprocessor (UInt8.ofNat position)))
  have idles := Board.coprocessor_rested (number.symm ▸ placed) (alike.rested (.coprocessor (UInt8.ofNat position)))
  cases first with
  | multiplier first =>
    obtain ⟨rfl, index⟩ := fit
    cases second with
    | multiplier second => exact ⟨index.trans matched.2.symm, (eq_of_beq rests).trans (eq_of_beq idles).symm⟩
    | rtc => cases matched.1
  | rtc first =>
    obtain ⟨rfl, fit⟩ := fit
    cases second with
    | multiplier => cases matched.1
    | rtc second =>
      refine ⟨fit.index.trans matched.2.index.symm, ?_⟩
      have resting : (!first.ticked) = true := rests
      have idling : (!second.ticked) = true := idles
      exact Bool.not_inj (resting.trans idling.symm)

/-- Machines right after power-on, whatever their memories were filled with, load any body alike. -/
theorem Fresh.serialize_alike (few : kinds.length ≤ Cartridge.maxCoprocessors) (fresh : one.Fresh kinds)
    (alike : other.Fresh kinds) (scheduler : one.scheduler = other.scheduler) :
    Alike Eq (one.serialize portable) (other.serialize portable) := by
  refine Machine.serialize_alike few scheduler (fresh.sound.fits.latches.trans alike.sound.fits.latches.symm) fun bus frame => ?_
  refine ⟨scheduler, ⟨rfl, rfl, ?_, ?_, ?_, ?_, fresh.sound.fits.chips.trans alike.sound.fits.chips.symm, ?_⟩, fresh.sound.fits.chips⟩
  · exact fresh.sound.fits.cpu.coprocessors.trans alike.sound.fits.cpu.coprocessors.symm
  · exact (fresh.rested .cpu : _ = _).trans (alike.rested .cpu : _ = _).symm
  · exact (Board.smp_rested (fresh.rested .smp)).trans (Board.smp_rested (alike.rested .smp)).symm
  · exact (Board.ppu_rested (fresh.rested .ppu)).trans (Board.ppu_rested (alike.rested .ppu)).symm
  · exact fun position first second found placed => coprocessors_akin few fresh alike found placed

end Machine
end MultiClock
