import MultiClock.Console
import MultiClock.Proofs.ChipVisits

/-! Visitors account for their bytes. While saving, the cursor counts what is in the buffer, and while loading, a
read past the end is remembered exactly if the cursor passed the end. This holds of every visitor and whatever the
values are that it passes over. -/

namespace MultiClock

namespace Serializer

/-- The cursor tells how much was written, and a load is marked exactly if it went past the end. -/
structure Counts (s : Serializer) : Prop where
  saved : s.mode = .save → s.buffer.size = s.cursor
  loaded : s.mode = .load → (s.overrun = true ↔ s.buffer.size < s.cursor)

theorem measure_counts : measure.Counts := ⟨nofun, nofun⟩

theorem save_counts : save.Counts := ⟨fun _ => rfl, nofun⟩

theorem load_counts (data : Array UInt8) : (load data).Counts := ⟨nofun, fun _ => by simp [load]⟩

/-- A later state of the same pass. What was written before stays, and what is loaded is not changed. -/
structure Continued (s later : Serializer) : Prop where
  counts : later.Counts
  mode : later.mode = s.mode
  kept : s.buffer.toList <+: later.buffer.toList
  loading : s.mode = .load → later.buffer = s.buffer

end Serializer

open Serializer

namespace Visit

/-- The pass after a visitor. -/
def after (visit : Visit α) (s : Serializer) : Serializer := (visit s).2

/-- Continues any pass that accounts for its bytes. -/
def Accounts (visit : Visit α) : Prop := ∀ s : Serializer, s.Counts → s.Continued (visit s).2

namespace Accounts
variable {visit : Visit α}

theorem pure (value : α) : Accounts (pure value) := fun _ counts => ⟨counts, rfl, List.prefix_rfl, fun _ => rfl⟩

theorem bind {next : α → Visit β} (first : visit.Accounts) (rest : ∀ value, (next value).Accounts) :
    Accounts (visit >>= next) := by
  intro s counts
  have middle := first s counts
  have last := rest (visit s).1 (visit s).2 middle.counts
  exact ⟨last.counts, last.mode.trans middle.mode, middle.kept.trans last.kept, fun loading =>
    (last.loading (middle.mode.trans loading)).trans (middle.loading loading)⟩

theorem map (f : α → β) (accounts : visit.Accounts) : Accounts (f <$> visit) := accounts

theorem word [Word α] (value : α) : Accounts (Serializer.word value) := by
  intro s counts
  cases used : s.mode with
  | measure => exact ⟨⟨by simp [Serializer.word, used], by simp [Serializer.word, used]⟩, by simp [Serializer.word, used],
      by simp [Serializer.word, used], by simp [used]⟩
  | save =>
    have size := counts.saved used
    refine ⟨⟨fun _ => ?_, by simp [Serializer.word, used]⟩, by simp [Serializer.word, used], ?_, by simp [used]⟩
    · simp [Serializer.word, used, pushBytes_eq, length_littleEndian, size]
    · simp [Serializer.word, used, pushBytes_eq]
  | load =>
    have marked := counts.loaded used
    refine ⟨⟨by simp [Serializer.word, used], fun _ => ?_⟩, by simp [Serializer.word, used], by simp [Serializer.word, used],
      fun _ => by simp [Serializer.word, used]⟩
    simp only [Serializer.word, used, Bool.or_eq_true, decide_eq_true_eq, marked]
    omega

theorem bytes (data : Vector UInt8 n) : Accounts (Serializer.bytes data) := by
  intro s counts
  cases used : s.mode with
  | measure => exact ⟨⟨by simp [Serializer.bytes, used], by simp [Serializer.bytes, used]⟩, by simp [Serializer.bytes, used],
      by simp [Serializer.bytes, used], by simp [used]⟩
  | save =>
    have size := counts.saved used
    refine ⟨⟨fun _ => ?_, by simp [Serializer.bytes, used]⟩, by simp [Serializer.bytes, used], ?_, by simp [used]⟩
    · simp [Serializer.bytes, used, size]
    · simp [Serializer.bytes, used]
  | load =>
    have marked := counts.loaded used
    rw [bytes_load used]
    refine ⟨⟨by simp [used], fun _ => ?_⟩, rfl, List.prefix_rfl, fun _ => rfl⟩
    simp only [Bool.or_eq_true, decide_eq_true_eq, marked]
    omega

theorem boolean (value : Bool) : Accounts (Serializer.boolean value) := word (if value then 1 else 0 : UInt8)

theorem reject (field : String) : Accounts (Serializer.reject field) := by
  intro s counts
  simp only [Serializer.reject, modify, modifyGet, MonadStateOf.modifyGet, StateT.modifyGet, Pure.pure]
  split
  · exact ⟨⟨counts.saved, counts.loaded⟩, rfl, List.prefix_rfl, fun _ => rfl⟩
  · exact ⟨counts, rfl, List.prefix_rfl, fun _ => rfl⟩

theorem require (field : String) (holds : Bool) (value default : α) :
    Accounts (Serializer.require field holds value default) := by
  cases holds with
  | true => exact pure value
  | false => exact (reject field).bind fun _ => pure default

theorem list {visit : α → Visit α} (item : ∀ value, (visit value).Accounts) (values : List α) :
    Accounts (values.mapM visit) := by
  induction values with
  | nil => exact pure []
  | cons value values ih =>
    rw [List.mapM_cons]
    exact (item value).bind fun _ => ih.bind fun _ => pure _

theorem array {visit : α → Visit α} (item : ∀ value, (visit value).Accounts) (values : Array α) :
    Accounts (values.mapM visit) := by
  have listed := list item values.toList
  rw [← Array.toList_mapM] at listed
  exact listed

theorem vector [Serializable α] (item : ∀ value : α, (Serializable.serialize value).Accounts) (values : Vector α n) :
    Accounts (Serializer.array values) := by
  have inner := array item values.toArray
  have same : Vector.toArray <$> values.mapM (Serializable.serialize : α → Visit α) = _ := Vector.toArray_mapM
  rw [← same] at inner
  exact inner

theorem fold {visit : β → ι → Visit β} (step : ∀ state item, (visit state item).Accounts) (items : List ι) (start : β) :
    Accounts (items.foldlM visit start) := by
  induction items generalizing start with
  | nil => exact pure start
  | cons item items ih => exact (step start item).bind fun _ => ih _

/-- One load after the other passes over the bytes of both, and goes past the end of the data only if it is shorter. -/
theorem loads {first : Visit α} {next : Visit β} {size more : Nat} {post : α → Prop} {final : β → Prop}
    (accounts : first.Accounts) (follows : next.Accounts) (passes : Yields .load size first post)
    (continues : Yields .load more next final) (data : Array UInt8) :
    (next.after (first.after (Serializer.load data))).cursor = size + more ∧
      ((next.after (first.after (Serializer.load data))).overrun = true ↔ data.size < size + more) := by
  simp only [after]
  obtain ⟨_, begun, loading⟩ := passes (Serializer.load data) rfl
  obtain ⟨_, ended, still⟩ := continues _ loading
  have middle := accounts (Serializer.load data) (load_counts data)
  have last := follows _ middle.counts
  have cursor : (next (first (Serializer.load data)).2).2.cursor = size + more := by
    rw [ended, begun, Serializer.load, Nat.zero_add]
  have buffer : (next (first (Serializer.load data)).2).2.buffer = data :=
    (last.loading loading).trans (middle.loading rfl)
  refine ⟨cursor, ?_⟩
  rw [last.counts.loaded still, buffer, cursor]

/-- One writer after the other writes as many bytes as both count, those of the first one first. -/
theorem saves {first : Visit α} {next : Visit β} {value : α} {bytes : List UInt8} {size more : Nat} {post : α → Prop}
    {final : β → Prop} (writes : first.Writes value bytes) (follows : next.Accounts) (passes : Yields .measure size first post)
    (continues : Yields .save more next final) :
    (next (first Serializer.save).2).2.buffer.size = size + more ∧
      ∃ others, (next (first Serializer.save).2).2.buffer = (bytes ++ others).toArray := by
  have length := writes.length passes
  have begun := writes Serializer.save (by decide)
  have counts : (Serializer.save.wrote bytes).Counts := ⟨fun _ => by simp [wrote, Serializer.save], nofun⟩
  obtain ⟨_, ended, still⟩ := continues (Serializer.save.wrote bytes) rfl
  have last := follows _ counts
  rw [begun]
  constructor
  · rw [last.counts.saved still, ended, ← length]
    simp [wrote, Serializer.save]
  · obtain ⟨others, same⟩ := last.kept
    refine ⟨others, Array.ext' ?_⟩
    rw [← same]
    simp [wrote, Serializer.save]

end Accounts
end Visit

open Visit

/-! The visitors of the chips. -/

theorem Chip.visit_accounts {χ : Type} [Chip χ] {stack : Bool} {chip : χ} (registers : Accounts (Chip.serialize chip))
    (continuation : ∀ later : χ, Accounts (Chip.serializeStack later)) : Accounts (Chip.visit stack chip) := by
  apply registers.bind
  intro later
  cases stack with
  | false => exact .pure later
  | true => exact continuation later

theorem Latch.accounts (latch : Latch) : Accounts (Serializable.serialize latch) :=
  .bind (.bytes _) fun _ => .bind (.bytes _) fun _ => .bind (.boolean _) fun _ => .pure _

theorem Bus.accounts (bus : Bus) : Accounts (Serializable.serialize bus) :=
  .bind (.bytes _) fun _ => .bind (Latch.accounts _) fun _ => .bind (.array Latch.accounts _) fun _ => .pure _

theorem Cpu.accounts (stack : Bool) (cpu : Cpu) : Accounts (Chip.visit stack cpu) := by
  have work : ∀ continuation : Continuation, continuation.serialize.Accounts := by
    intro continuation
    simp only [Continuation.serialize]
    refine .bind (.word _) fun _ => .bind (.word _) fun _ => .bind (.word _) fun _ => .bind (.word _) fun _ => ?_
    split
    · exact .pure _
    · exact .bind (.reject _) fun _ => .pure _
  have registers : Accounts (Chip.serialize cpu) :=
    .bind (.word _) fun _ => .bind (.word _) fun _ => .bind (.word _) fun _ => .bind (.word _) fun _ =>
      .bind (.word _) fun _ => .bind (.word _) fun _ => .bind (.require _ _ _ _) fun _ => .pure _
  exact Chip.visit_accounts registers fun later => .bind (work later.continuation) fun _ => .pure _

theorem Smp.accounts (stack : Bool) (smp : Smp) : Accounts (Chip.visit stack smp) := by
  have work : ∀ continuation : Continuation, continuation.serialize.Accounts := by
    intro continuation
    simp only [Continuation.serialize]
    refine .bind (.word _) fun _ => .bind (.word _) fun _ => .bind (.word _) fun _ => .bind (.word _) fun _ => ?_
    split
    · exact .pure _
    · exact .bind (.reject _) fun _ => .pure _
  have registers : Accounts (Chip.serialize smp) :=
    .bind (.bytes _) fun _ => .bind (.word _) fun _ => .bind (.word _) fun _ => .bind (.word _) fun _ =>
      .bind (.word _) fun _ => .bind (.vector .word _) fun _ => .bind (.word _) fun _ =>
      .bind (.require _ _ _ _) fun _ => .bind (.require _ _ _ _) fun _ => .pure _
  exact Chip.visit_accounts registers fun later => .bind (work later.continuation) fun _ => .pure _

theorem Ppu.accounts (stack : Bool) (ppu : Ppu) : Accounts (Chip.visit stack ppu) := by
  have work : ∀ continuation : Continuation, continuation.serialize.Accounts := by
    intro continuation
    simp only [Continuation.serialize]
    refine .bind (.word _) fun _ => .bind (.word _) fun _ => ?_
    split
    · exact .pure _
    · exact .bind (.reject _) fun _ => .pure _
  have picture : ∀ picture : Framebuffer, Accounts (Serializable.serialize picture) := fun _ =>
    .bind (.vector (fun _ => .bind (.word _) fun _ => .pure _) _) fun _ => .pure _
  have registers : Accounts (Chip.serialize ppu) :=
    .bind (.word _) fun _ => .bind (.word _) fun _ => .bind (picture _) fun _ => .bind (.require _ _ _ _) fun _ => .pure _
  exact Chip.visit_accounts registers fun later => .bind (work later.continuation) fun _ => .pure _

theorem Multiplier.accounts (stack : Bool) (unit : Multiplier) : Accounts (Chip.visit stack unit) := by
  have work : ∀ continuation : Continuation, continuation.serialize.Accounts := by
    intro continuation
    simp only [Continuation.serialize]
    refine .bind (.word _) fun _ => .bind (.word _) fun _ => ?_
    split
    · exact .pure _
    · exact .bind (.reject _) fun _ => .pure _
  have registers : Accounts (Chip.serialize unit) := .bind (.bytes _) fun _ => .bind (.word _) fun _ => .pure _
  exact Chip.visit_accounts registers fun later => .bind (work later.continuation) fun _ => .pure _

theorem Rtc.accounts (stack : Bool) (clock : Rtc) : Accounts (Chip.visit stack clock) := by
  have registers : Accounts (Chip.serialize clock) :=
    .bind (.word _) fun _ => .bind (.word _) fun _ => .bind (.require _ _ _ _) fun _ => .pure _
  exact Chip.visit_accounts registers fun later => .bind (.boolean later.ticked) fun _ => .pure _

theorem Coprocessor.accounts (stack : Bool) (chip : Coprocessor) : Accounts (Chip.visit stack chip) := by
  cases chip with
  | multiplier unit =>
    rw [visit_multiplier]
    exact (unit.accounts stack).map _
  | rtc clock =>
    rw [visit_rtc]
    exact (clock.accounts stack).map _

/-! The visitors of whole machines. -/

namespace Board

theorem serializeChip_accounts (board : Board) (id : ThreadId) (stack : Bool) : Accounts (board.serializeChip id stack) := by
  obtain ⟨bus, cpu, smp, ppu, coprocessors, frame⟩ := board
  cases id with
  | cpu => exact (cpu.accounts stack).bind fun _ => .pure _
  | smp => exact (smp.accounts stack).bind fun _ => .pure _
  | ppu => exact (ppu.accounts stack).bind fun _ => .pure _
  | coprocessor index =>
    have chips : Accounts (coprocessors.modifyM index.toNat (Chip.visit stack)) := by
      simp only [Array.modifyM]
      split
      · exact (Coprocessor.accounts stack _).bind fun _ => .pure _
      · exact .pure _
    exact chips.bind fun _ => .pure _

end Board

namespace Scheduler

theorem serializeThread_accounts (scheduler : Scheduler) (id : ThreadId) : Accounts (scheduler.serializeThread id) := by
  simp only [serializeThread]
  split
  next => exact .pure _
  next thread _ =>
    have clock : Accounts thread.serialize :=
      .bind (.bind (.word _) fun _ => .bind (.word _) fun _ => .pure _) fun _ =>
        .bind (.require _ _ _ _) fun _ => .bind (.require _ _ _ _) fun _ => .pure _
    exact clock.bind fun _ => .bind (.require _ _ _ _) fun _ => .pure _

theorem serializeStack_accounts (scheduler : Scheduler) : Accounts scheduler.serializeStack := by
  have state : ∀ thread : Thread, thread.serializeStack.Accounts := by
    intro thread
    simp only [Thread.serializeStack]
    apply Accounts.bind (.word _)
    intro code
    split
    · exact .pure _
    · exact .bind (.reject _) fun _ => .pure _
  simp only [serializeStack]
  refine .bind (.word _) fun active => .bind (.boolean _) fun _ => .bind (.array state _) fun _ => ?_
  split
  · exact .pure _
  · exact .bind (.reject _) fun _ => .pure _

end Scheduler

/-- A machine in any state at all is visited so. -/
theorem Machine.serialize_accounts (machine : Machine) (portable : Bool) : Accounts (machine.serialize portable) := by
  obtain ⟨scheduler, ⟨bus, cpu, smp, ppu, coprocessors, frame⟩⟩ := machine
  simp only [serialize]
  refine .bind (.word _) fun _ => .bind (Bus.accounts _) fun _ => .bind (.fold ?_ _ _) fun later => ?_
  · intro machine id
    exact (machine.scheduler.serializeThread_accounts id).bind fun _ =>
      (machine.board.serializeChip_accounts id _).bind fun _ => .pure _
  · cases portable with
    | true => exact .pure _
    | false => exact (later.scheduler.serializeStack_accounts).bind fun _ => .pure _

theorem Snapshot.Header.accounts (header : Header) : Accounts (Serializable.serialize header) :=
  .bind (.word _) fun _ => .bind (.word _) fun _ => .bind (.bytes _) fun _ => .bind (.bytes _) fun _ =>
    .bind (.boolean _) fun _ => .bind (.boolean _) fun _ => .pure _

end MultiClock
