import MultiClock.Proofs.FrameCadence
import MultiClock.Proofs.PortOrder
import MultiClock.Proofs.Samples

/-! No sound is lost. The host takes the samples at every frame, and from one frame to the next the audio processor cannot step
as far as it would need to in order to fill its buffer: both keep their pace with the reference, and frames come in time. -/

namespace MultiClock

variable {kinds : List CoprocessorKind}

/-- The samples that the audio processor emits in this slice. -/
def Moment.emitted (moment : Moment) : List Int16 :=
  if moment.before.scheduler.active = .smp then moment.before.board.smp.emission else []

def emittedIn (history : List Moment) : List Int16 := history.flatMap Moment.emitted

/-- All samples that the host was handed. -/
def soundOf (entries : List Entry) : List Int16 := (framesOf entries).flatMap fun frame => frame.2.toList

/-- The chips right after that. -/
def Entry.board : Entry → Board
  | slice moment => moment.after.board
  | frame _ after => after

/-- What the host was handed and what is still in the buffer is all that was emitted, and there is room for the next sample. -/
structure WholeSound (entries : List Entry) (board : Board) : Prop where
  whole : soundOf entries ++ board.smp.samples.toList = emittedIn (slicesOf entries)
  count : (emittedIn (slicesOf entries)).length = elapsed .smp (slicesOf entries) / 768
  room : board.smp.sampleCount.toNat < Smp.sampleCapacity

section
variable (entries : List Entry) (moment : Moment) (before after : Board)

@[simp] theorem soundOf_slice : soundOf (entries ++ [.slice moment]) = soundOf entries := by simp [soundOf]

@[simp] theorem soundOf_frame : soundOf (entries ++ [.frame before after]) = soundOf entries ++ before.smp.samples.toList := by
  simp [soundOf]

@[simp] theorem emittedIn_slice :
    emittedIn (slicesOf (entries ++ [.slice moment])) = emittedIn (slicesOf entries) ++ moment.emitted := by
  simp [emittedIn]

end

theorem Board.slice_sounds (board : Board) (scheduler : Scheduler) :
    Meets (fun _ => True) (fun result => board.smp.sampleCount.toNat < Smp.sampleCapacity →
      result.1.smp.samples.toList = board.smp.samples.toList ++ board.smp.emission ∧
        unitsOf .smp result.2.2 + board.smp.elapsed.toNat = result.1.smp.elapsed.toNat + 768 * board.smp.emission.length)
      (board.slice .smp scheduler) := by
  refine (board.smp.slice_sounds ⟨board.bus, scheduler, .smp, []⟩).bind ?_
  intro result sounds
  obtain ⟨smp, after⟩ := result
  apply Meets.pure
  intro room
  obtain ⟨samples, units⟩ := sounds room
  refine ⟨samples, units.trans ?_⟩
  simp [unitsOf, Smp.sampleUnits]

namespace Machine

/-- The clocks of the audio and of the display processor are as close to the reference's as they always are. -/
structure InTempo (times : ThreadId → Int) : Prop where
  audio_behind : -(1492 * 24576000) ≤ times .smp
  audio_ahead : times .smp ≤ 24648 * 21477272
  picture_behind : -(1492 * 21477272) ≤ times .ppu
  picture_ahead : times .ppu < 1364 * 21477272

theorem InTempo.of_bounded {scheduler : Scheduler} (bounded : scheduler.Bounded kinds) : InTempo scheduler.time := by
  have audio := bounded.behind .smp (by simp) (by simp only [ThreadId.index]; omega)
  have picture := bounded.behind .ppu (by simp) (by simp only [ThreadId.index]; omega)
  rw [Scheduler.audio_rate bounded.wired] at audio
  rw [Scheduler.picture_rate bounded.wired] at picture
  exact ⟨audio, bounded.audio, picture, bounded.picture⟩

variable [ChipSet σ] {board : σ → Board} {scheduler later middle : Scheduler} {chips moved : σ} {action : Action} {notices : List Notice}

theorem Sliced.sounds (wraps : ChipSet.Wraps board) (sliced : Sliced board .own kinds scheduler chips action later moved middle notices)
    (room : (board chips).smp.sampleCount.toNat < Smp.sampleCapacity) :
    let emitted := if scheduler.active = .smp then (board chips).smp.emission else []
    (board moved).smp.samples.toList = (board chips).smp.samples.toList ++ emitted ∧
      unitsOf .smp notices + (board chips).smp.elapsed.toNat = (board moved).smp.elapsed.toNat + 768 * emitted.length := by
  have shown := sliced.shown wraps
  by_cases audio : scheduler.active = .smp
  · rw [audio] at shown
    simp only [if_pos audio]
    exact ((Board.slice_sounds _ _).of_ok shown) room
  · have kept := (Board.slice_keeps _ _ _).of_ok shown
    have same : (board moved).smp = (board chips).smp := kept.2.1 audio
    have units := sliced.units .smp
    rw [if_neg (Ne.symm audio)] at units
    simp [audio, same, units]

end Machine

/-- What relates the samples, the clocks and the frames of a machine to what it has stepped. -/
structure Audible (times : ThreadId → Int) (chronicle : Chronicle) : Prop where
  whole : soundOf chronicle.entries ++ chronicle.board.smp.samples.toList = emittedIn (slicesOf chronicle.entries)
  units : elapsed .smp (slicesOf chronicle.entries) =
    chronicle.board.smp.elapsed.toNat + 768 * (emittedIn (slicesOf chronicle.entries)).length
  audio : times .smp = elapsed .smp (slicesOf chronicle.entries) * 21477272 - elapsed .cpu (slicesOf chronicle.entries) * 24576000
  picture : times .ppu = elapsed .ppu (slicesOf chronicle.entries) * 21477272 - elapsed .cpu (slicesOf chronicle.entries) * 21477272
  tempo : Machine.InTempo times
  /-- The sound that the host was handed at the last frame takes about as long as all frames so far. -/
  pace : 24576000 * ((framesOf chronicle.entries).length * 357368) ≤
    21477272 * (768 * ((soundOf chronicle.entries).length + 1)) + 24576000 * 54688

namespace Audible

variable {times : ThreadId → Int} {chronicle : Chronicle}

/-- The buffer never comes near its limit, since there is a frame before it could. -/
theorem buffered (audible : Audible times chronicle)
    (drawn : elapsed .ppu (slicesOf chronicle.entries) ≤ 305536 + (framesOf chronicle.entries).length * 357368) :
    chronicle.board.smp.samples.toList.length < 2048 := by
  have whole := congrArg List.length audible.whole
  rw [List.length_append] at whole
  have units := audible.units
  have audio := audible.audio
  have picture := audible.picture
  have ahead := audible.tempo.audio_ahead
  have behind := audible.tempo.picture_behind
  have pace := audible.pace
  omega

theorem wholeSound (audible : Audible times chronicle) (bounded : chronicle.board.smp.Bounded)
    (drawn : elapsed .ppu (slicesOf chronicle.entries) ≤ 305536 + (framesOf chronicle.entries).length * 357368) :
    WholeSound chronicle.entries chronicle.board := by
  have short := UInt32.lt_iff_toNat_lt.mp bounded.elapsed
  have buffered := audible.buffered drawn
  have units := audible.units
  rw [Smp.length_samples bounded] at buffered
  simp only [Smp.sampleUnits, UInt32.reduceToNat] at short
  exact ⟨audible.whole, by omega, buffered⟩

/-- A slice keeps it, as long as the clocks stay within their bounds. -/
theorem slice {scheduler later middle : Scheduler} {moved : Chronicle} {action : Action} {notices : List Notice}
    (audible : Audible scheduler.time chronicle) (sound : Machine.Sound .own kinds ⟨scheduler, chronicle.board⟩)
    (sliced : Machine.Sliced Chronicle.board .own kinds scheduler chronicle action later moved middle notices)
    (bounded : middle.Bounded kinds)
    (drawn : elapsed .ppu (slicesOf chronicle.entries) ≤ 305536 + (framesOf chronicle.entries).length * 357368) :
    Audible later.time moved := by
  have room : chronicle.board.smp.sampleCount.toNat < Smp.sampleCapacity := (audible.wholeSound sound.fits.smp drawn).room
  obtain ⟨samples, units⟩ := sliced.sounds Chronicle.wraps room
  have wired := sound.wired
  have entries := Chronicle.entries_of_slice sliced.sliced
  have steps : ∀ id, elapsed id (slicesOf moved.entries) = elapsed id (slicesOf chronicle.entries) + unitsOf id notices := by
    intro id
    rw [entries]
    exact elapsed_slice _ _ id
  have emitted : emittedIn (slicesOf moved.entries) = emittedIn (slicesOf chronicle.entries) ++
      if scheduler.active = .smp then chronicle.board.smp.emission else [] := by
    rw [entries, emittedIn_slice]
    rfl
  have soundOf_moved : soundOf moved.entries = soundOf chronicle.entries := by
    rw [entries, soundOf_slice]
  have framesOf_moved : framesOf moved.entries = framesOf chronicle.entries := by
    rw [entries]
    simp
  have clock : ∀ id, id ≠ .cpu → later.time id =
      scheduler.time id + unitsOf id notices * second - unitsOf .cpu notices * scheduler.rate id :=
    fun id dependent => sliced.took.clock wired sliced.units dependent
  refine ⟨?_, ?_, ?_, ?_, ?_, ?_⟩
  · rw [soundOf_moved, samples, emitted, ← List.append_assoc, audible.whole]
  · rw [steps, emitted, List.length_append, Nat.mul_add]
    have before := audible.units
    omega
  · rw [clock .smp (by simp), audible.audio, Scheduler.audio_rate wired, steps, steps]
    simp only [second]
    omega
  · rw [clock .ppu (by simp), audible.picture, Scheduler.picture_rate wired, steps, steps]
    simp only [second]
    omega
  · rw [(sliced.alike Chronicle.wraps).2]
    exact .of_bounded bounded
  · rw [framesOf_moved, soundOf_moved]
    exact audible.pace

/-- The host takes what is in the buffer. By then a whole frame's time has passed. -/
theorem frame [Host ω] (audible : Audible times chronicle) (bounded : chronicle.board.smp.Bounded) (cheats : List Cheat) (host : ω)
    (drawn : elapsed .ppu (slicesOf chronicle.entries) = 305536 + (framesOf chronicle.entries).length * 357368) :
    Audible times (chronicle.completeFrame cheats host).1 := by
  have entries : (chronicle.completeFrame cheats host).1.entries =
      chronicle.entries ++ [.frame chronicle.board (chronicle.board.completeFrame cheats host).1] := rfl
  have slices : slicesOf (chronicle.completeFrame cheats host).1.entries = slicesOf chronicle.entries := by
    rw [entries]
    simp
  have frames : (framesOf (chronicle.completeFrame cheats host).1.entries).length = (framesOf chronicle.entries).length + 1 := by
    rw [entries]
    simp
  have handed : soundOf (chronicle.completeFrame cheats host).1.entries = emittedIn (slicesOf chronicle.entries) := by
    rw [entries, soundOf_frame]
    exact audible.whole
  have empty : (chronicle.completeFrame cheats host).1.board.smp.samples.toList = [] := by
    rw [Smp.samples_toList]
    exact List.take_zero
  refine ⟨?_, ?_, ?_, ?_, audible.tempo, ?_⟩
  · rw [handed, empty, List.append_nil, slices]
  · rw [slices]
    exact audible.units
  · rw [slices]
    exact audible.audio
  · rw [slices]
    exact audible.picture
  · have short := UInt32.lt_iff_toNat_lt.mp bounded.elapsed
    have units := audible.units
    have audio := audible.audio
    have picture := audible.picture
    have behind := audible.tempo.audio_behind
    have ahead := audible.tempo.picture_ahead
    simp only [Smp.sampleUnits, UInt32.reduceToNat] at short
    rw [handed, frames]
    omega

end Audible

theorem Always.of_snoc {holds : List Moment → Moment → Prop} {history : List Moment} {last : Moment}
    (always : Always holds (history ++ [last])) : Always holds history ∧ holds history last := by
  constructor
  · intro earlier moment later split
    apply always earlier moment (later ++ [last])
    rw [split, List.append_assoc, List.cons_append]
  · exact always history last [] rfl

namespace Chronicle

variable {times : ThreadId → Int} {chronicle : Chronicle}

/-- As long as the clocks stay within their bounds, no sound has been lost so far. -/
def Sounding (kinds : List CoprocessorKind) (times : ThreadId → Int) (chronicle : Chronicle) : Prop :=
  Always (fun _ moment => moment.after.scheduler.Bounded kinds) (slicesOf chronicle.entries) →
    Audible times chronicle ∧ Throughout (fun earlier entry => WholeSound (earlier ++ [entry]) entry.board) chronicle.entries

theorem sounding_upheld [Host ω] (few : kinds.length ≤ Cartridge.maxCoprocessors) (cheats : List Cheat) :
    Upheld (ω := ω) kinds Chronicle.board (Chronicle.completeFrame cheats)
      (fun times chronicle _ => Cadent.Between chronicle ∧ Sounding kinds times chronicle)
      (fun times chronicle _ => Cadent.Waiting chronicle ∧ Sounding kinds times chronicle) where
  slice := by
    intro scheduler chronicle host sound ready held action later moved middle notices sliced
    obtain ⟨between, sounding⟩ := held
    have cadence := between.slice few sound ready sliced
    -- Before and after the frame no more is drawn than the frames account for, so the samples fit the buffer.
    have drawn : elapsed .ppu (slicesOf moved.entries) ≤ 305536 + (framesOf moved.entries).length * 357368 := by
      split at cadence
      next => exact Nat.le_of_eq cadence.drawn
      next => exact cadence.drawn
    have entries := entries_of_slice sliced.sliced
    have sounds : Sounding kinds later.time moved := by
      intro always
      rw [entries, slicesOf_append] at always
      obtain ⟨always, bounded⟩ := always.of_snoc
      obtain ⟨audible, past⟩ := sounding always
      have audible := audible.slice sound sliced bounded between.drawn
      have whole := audible.wholeSound sliced.sound.fits.smp drawn
      refine ⟨audible, ?_⟩
      rw [entries] at whole ⊢
      exact past.snoc whole
    split at cadence
    next raised =>
      rw [if_pos raised]
      exact ⟨cadence, sounds⟩
    next silent =>
      rw [if_neg silent]
      exact ⟨cadence, sounds⟩
  frame := by
    intro scheduler chronicle host sound held
    obtain ⟨waiting, sounding⟩ := held
    have between := waiting.frame cheats host
    refine ⟨between, fun always => ?_⟩
    have entries : (chronicle.completeFrame cheats host).1.entries =
      chronicle.entries ++ [.frame chronicle.board (chronicle.board.completeFrame cheats host).1] := rfl
    rw [entries, slicesOf_append, slicesOf_frame, slicesOf_nil, List.append_nil] at always
    obtain ⟨audible, past⟩ := sounding always
    have audible := audible.frame sound.fits.smp cheats host waiting.drawn
    refine ⟨audible, ?_⟩
    have whole := audible.wholeSound (sound.completeFrame cheats host).fits.smp between.drawn
    rw [entries] at whole ⊢
    exact past.snoc whole
  hears _ _ _ _ held := held
  hears_due _ _ _ _ held := held
  board := ⟨cheats, fun _ _ => rfl⟩

end Chronicle

namespace Console

theorem sounding_of_built [Host ω] {configuration : Configuration} {cartridge : Cartridge} {seed : UInt64} {host : ω} {console : Console}
    (built : (Console.new configuration cartridge seed host).1 = .ok console) (wram : Vector UInt8 0x2000) (ram : Vector UInt8 0x1000)
    (cheats : List Cheat) : Chronicle.Sounding cartridge.coprocessors (console.holding wram ram cheats).machine.scheduler.time
      ⟨(console.holding wram ram cheats).machine.board, []⟩ := by
  intro _
  have level := (fresh_of_built built wram ram cheats).level
  obtain ⟨_, audio, _⟩ := board_of_built built wram ram cheats
  refine ⟨⟨?_, ?_, ?_, ?_, ?_, ?_⟩, .nil⟩
  · rw [audio, Smp.samples_toList]
    simp [soundOf, emittedIn, Smp.new]
  · rw [audio]
    simp [elapsed, emittedIn, Smp.new]
  · simp [level, elapsed]
  · simp [level, elapsed]
  · constructor <;> simp [level]
  · simp

/-- No sound is lost, whatever a console with the fast method is asked to do after power-on: at every instant what the host was
handed and what is still in the buffer is all that was emitted, one sample for every 768 units that the audio processor stepped,
and the buffer still has room. -/
theorem no_sound_lost [Host ω] {configuration : Configuration} {cartridge : Cartridge} {seed : UInt64} {host : ω}
    {console : Console} (built : (Console.new configuration cartridge seed host).1 = .ok console) (fast : console.method = .fast)
    (wram : Vector UInt8 0x2000) (ram : Vector UInt8 0x1000) (cheats : List Cheat) :
    ∃ enough, ∀ budget, enough ≤ budget → ∀ (requests : List Request) (υ : Type) [Host υ] (listener : υ), ∃ last entries heard,
      (console.holding wram ram cheats).operate budget requests listener = (.ok last, heard) ∧
      (console.holding wram ram cheats).chronicle budget requests listener = (.ok (last, entries), heard) ∧
      Throughout (fun earlier entry => WholeSound (earlier ++ [entry]) entry.board) entries ∧
      WholeSound entries last.machine.board ∧
      ∀ log : υ → List (Framebuffer × Array Int16), Logs log → log heard = log listener ++ framesOf entries := by
  refine ⟨Machine.ample 0 + Machine.vast + 1, fun budget enough requests υ _ listener => ?_⟩
  obtain ⟨last, history, heard, watched, surveyed⟩ := watch_fast built fast wram ram cheats enough requests listener
  obtain ⟨entries, written, rfl⟩ := chronicle_of_watch watched
  obtain ⟨few, _⟩ := new_eq_ok built
  have begins := (fresh_of_built built wram ram cheats).sound
  obtain ⟨sound, between, sounding⟩ := upheld_of_chronicle (Chronicle.sounding_upheld few cheats) few begins
    ⟨between_of_built built wram ram cheats, sounding_of_built built wram ram cheats⟩ written
  obtain ⟨audible, whole⟩ := sounding (Always.imp surveyed fun _ _ paced => paced.bounded)
  exact ⟨last, entries, heard, operate_of_watch watched, written, whole, audible.wholeSound sound.fits.smp between.drawn,
    fun log logs => log_of_chronicle logs few begins written⟩

theorem no_sound_lost_switched_on : sample.method = .fast ∧ ∃ enough last entries heard,
    (sample.holding (Vector.replicate 0x2000 2) (Vector.replicate 0x1000 1) []).chronicle enough [.run, .save, .run] () =
        (.ok (last, entries), heard) ∧ WholeSound entries last.machine.board := by
  have built : (Console.new Configuration.standard sample.cartridge 0 ()).1 = .ok sample := new_eq rfl Configuration.standard 0 ()
  obtain ⟨enough, sounds⟩ := no_sound_lost built rfl (Vector.replicate 0x2000 2) (Vector.replicate 0x1000 1) []
  obtain ⟨last, entries, heard, _, written, _, whole, _⟩ := sounds enough (Nat.le_refl _) [.run, .save, .run] Unit ()
  exact ⟨rfl, enough, last, entries, heard, written, whole⟩

end Console
end MultiClock
