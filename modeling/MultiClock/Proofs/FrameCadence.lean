import MultiClock.Proofs.BoundedDrift
import MultiClock.Proofs.HostRules

/-! When frames complete. The display processor draws 224 lines and hands over a frame, and from then on it draws 262 lines from one
frame to the next, however its lines are cut into slices and whoever lets it draw. -/

namespace MultiClock

variable {loads : Loads} {kinds : List CoprocessorKind}

theorem Action.request_eq_frame {action : Action} {desynchronized : Bool} :
    action.request desynchronized = some (.leave .frame) ↔ action = .frame := by
  cases action <;> cases desynchronized <;> simp [request]

namespace Ppu

/-- A frame is only handed over right after the last visible line. -/
def Lined (ppu : Ppu) : Prop := ppu.continuation = .frame → ppu.line = visibleLines

/-- After a frame was handed over. -/
def handed (ppu : Ppu) : Ppu := { ppu with frame := ppu.frame + 1, continuation := .endOfLine }

/-- After a frame there are 262 lines until the next one. -/
theorem handed_unitsLeft {ppu : Ppu} (raised : ppu.continuation = .frame) (lined : ppu.Lined) : ppu.handed.unitsLeft = 357368 := by
  simp only [handed, unitsLeft, lined raised]
  rfl

theorem Moves.frames {cx : Context} {before after : Ppu} {action : Action} (moves : before.Moves cx after action) :
    action = .frame ∧ before.continuation = .frame ∧ after = before.handed ∨
      action ≠ .frame ∧ after.frame = before.frame ∧ after.Lined := by
  cases moves with
  | stop idle => exact .inr ⟨nofun, rfl, fun raised => by cases idle.symm.trans raised⟩
  | pass | dots => exact .inr ⟨nofun, rfl, nofun⟩
  | last dot units line =>
    refine .inr ⟨nofun, rfl, fun raised => ?_⟩
    by_contra other
    simp [show line ≠ visibleLines from other] at raised
  | frame raised => exact .inl ⟨rfl, raised, rfl⟩
  | wrap _ defers => exact .inr ⟨by cases defers <;> nofun, rfl, nofun⟩

/-- A slice counts a frame exactly if it hands one over. -/
theorem slice_frames (ppu : Ppu) (cx : Context) (indexed : cx.scheduler.Indexed) (free : cx.scheduler.transfer = none) :
    Meets (fun _ => True) (fun result =>
      if result.2.scheduler.transfer = some (.leave .frame) then ppu.continuation = .frame ∧ result.1 = ppu.handed
      else result.1.frame = ppu.frame ∧ result.1.Lined) (Chip.slice ppu cx) := by
  refine ((ppu.slice_moves cx).permit fun _ _ => trivial).mono ?_
  rintro result ⟨_, action, does, moves⟩
  have raises : result.2.scheduler.transfer = some (.leave .frame) ↔ action = .frame := by
    rw [does.scheduler.transfer indexed free]
    exact Action.request_eq_frame
  obtain ⟨raised, frames⟩ | ⟨silent, kept⟩ := moves.frames
  · rw [if_pos (raises.mpr raised)]
    exact frames
  · rw [if_neg (mt raises.mp silent)]
    exact kept

end Ppu

theorem Board.slice_frames (board : Board) (scheduler : Scheduler) (indexed : scheduler.Indexed) (free : scheduler.transfer = none) :
    Meets (fun _ => True) (fun result =>
      if result.2.1.transfer = some (.leave .frame) then board.ppu.continuation = .frame ∧ result.1.ppu = board.ppu.handed
      else result.1.ppu.frame = board.ppu.frame ∧ result.1.ppu.Lined) (board.slice .ppu scheduler) :=
  (board.ppu.slice_frames ⟨board.bus, scheduler, .ppu, []⟩ indexed free).bind fun _ drawn => .pure drawn

namespace Machine

section
variable [ChipSet σ] {board : σ → Board} (wraps : ChipSet.Wraps board) (few : kinds.length ≤ Cartridge.maxCoprocessors)
  {scheduler : Scheduler} {chips : σ} {action : Action} {later middle : Scheduler} {moved : σ} {notices : List Notice}
  (sound : Sound loads kinds ⟨scheduler, board chips⟩) (ready : Inside ⟨scheduler, board chips⟩)
  (sliced : Sliced board loads kinds scheduler chips action later moved middle notices)
include wraps few sound ready sliced

theorem Sliced.raises : middle.transfer = some (.leave .frame) ↔ action = .frame := by
  have leaves := sliced.leaves wraps (Scheduler.indexed_of_wiring few sound.wired) ready.entered
  split at leaves
  next returns =>
    obtain asked | stays := sliced.took.event
    · rw [leaves, ← asked]
      exact Action.request_eq_frame
    · exact absurd (returns.symm.trans stays) (by simp)
  next stays =>
    refine iff_of_false (leaves .frame) ?_
    rintro rfl
    exact stays rfl

/-- A slice either hands over a frame, or it draws what it steps. -/
theorem Sliced.draws :
    if middle.transfer = some (.leave .frame) then
      unitsOf .ppu notices = 0 ∧ (board chips).ppu.continuation = .frame ∧ (board moved).ppu = (board chips).ppu.handed
    else unitsOf .ppu notices + (board moved).ppu.unitsLeft = (board chips).ppu.unitsLeft ∧
      (board moved).ppu.frame = (board chips).ppu.frame ∧ ((board chips).ppu.Lined → (board moved).ppu.Lined) := by
  have indexed := Scheduler.indexed_of_wiring few sound.wired
  have shown := sliced.shown wraps
  have drawn := (Board.slice_unitsLeft scheduler.active (board chips) scheduler).of_ok shown
  have units := sliced.units .ppu
  have raises := sliced.raises wraps few sound ready
  by_cases picture : scheduler.active = .ppu
  · rw [picture] at shown
    have frames := (Board.slice_frames (board chips) scheduler indexed ready.free).of_ok shown
    simp only at frames drawn
    split at frames
    next raised =>
      rw [if_pos raised]
      refine ⟨?_, frames⟩
      rw [units, if_pos picture.symm, raises.mp raised]
      rfl
    next silent =>
      rw [if_neg silent]
      refine ⟨?_, frames.1, fun _ => frames.2⟩
      have drawn := drawn.resolve_left silent
      rwa [if_pos picture] at drawn
  · have kept := (Board.slice_keeps scheduler.active (board chips) scheduler).of_ok shown
    have same : (board moved).ppu = (board chips).ppu := kept.2.2.1 picture
    have silent : middle.transfer ≠ some (.leave .frame) := by
      intro raised
      cases raises.mp raised
      exact picture (sliced.took.frame_picture sound ready)
    rw [if_neg silent, same, units, if_neg (Ne.symm picture)]
    exact ⟨Nat.zero_add _, rfl, id⟩

end
end Machine

/-- The last thing that happened is a slice that handed over a frame. -/
def Raised (entries : List Entry) : Prop := ∃ earlier moment, entries = earlier ++ [.slice moment] ∧ moment.Raises

theorem raised_slice (entries : List Entry) (moment : Moment) : Raised (entries ++ [.slice moment]) ↔ moment.Raises := by
  constructor
  · rintro ⟨earlier, last, same, raises⟩
    cases (List.append_inj' same rfl).2
    exact raises
  · exact fun raises => ⟨entries, moment, rfl, raises⟩

theorem not_raised_frame (entries : List Entry) (before after : Board) : ¬ Raised (entries ++ [.frame before after]) := by
  rintro ⟨earlier, last, same, _⟩
  cases (List.append_inj' same rfl).2

/-- A slice that comes at its time. No frame that was raised is still waiting, the next one has not been missed, and both
counters show the frames so far. -/
structure SliceOnTime (earlier : List Entry) (moment : Moment) : Prop where
  prompt : ¬ Raised earlier
  due : elapsed .ppu (slicesOf earlier ++ [moment]) ≤ 305536 + (framesOf earlier).length * 357368
  machine : moment.before.board.frame = .ofNat (framesOf earlier).length
  picture : moment.before.board.ppu.frame = .ofNat (framesOf earlier).length

/-- A frame that comes at its time, right after the slice that raised it. Afterwards both counters include it. -/
structure FrameOnTime (earlier : List Entry) (after : Board) : Prop where
  prompt : Raised earlier
  due : elapsed .ppu (slicesOf earlier) = 305536 + (framesOf earlier).length * 357368
  machine : after.frame = .ofNat ((framesOf earlier).length + 1)
  picture : after.ppu.frame = .ofNat ((framesOf earlier).length + 1)

def OnTime (earlier : List Entry) : Entry → Prop
  | .slice moment => SliceOnTime earlier moment
  | .frame _ after => FrameOnTime earlier after

/-- A chronicle in which so many frames were raised. -/
structure Cadent (count : Nat) (chronicle : Chronicle) : Prop where
  units : elapsed .ppu (slicesOf chronicle.entries) + chronicle.board.ppu.unitsLeft = 305536 + count * 357368
  machine : chronicle.board.frame = .ofNat (framesOf chronicle.entries).length
  picture : chronicle.board.ppu.frame = .ofNat count
  lined : chronicle.board.ppu.Lined
  past : Throughout OnTime chronicle.entries

namespace Cadent

def Between (chronicle : Chronicle) : Prop :=
  Cadent (framesOf chronicle.entries).length chronicle ∧ ¬ Raised chronicle.entries

/-- A frame was raised, and the host has yet to see to it. -/
def Waiting (chronicle : Chronicle) : Prop :=
  Cadent ((framesOf chronicle.entries).length + 1) chronicle ∧ Raised chronicle.entries ∧ chronicle.board.ppu.unitsLeft = 357368

theorem Between.drawn {chronicle : Chronicle} (between : Between chronicle) :
    elapsed .ppu (slicesOf chronicle.entries) ≤ 305536 + (framesOf chronicle.entries).length * 357368 :=
  Nat.le.intro between.1.units

theorem Waiting.drawn {chronicle : Chronicle} (waiting : Waiting chronicle) :
    elapsed .ppu (slicesOf chronicle.entries) = 305536 + (framesOf chronicle.entries).length * 357368 := by
  have units := waiting.1.units
  rw [waiting.2.2] at units
  omega

/-- A slice keeps the balance of what is stepped and what is left to draw. If it raises a frame, that frame has to be handed over
before the next slice. -/
theorem Between.slice (few : kinds.length ≤ Cartridge.maxCoprocessors) {scheduler later middle : Scheduler}
    {chronicle moved : Chronicle} {action : Action} {notices : List Notice} (between : Between chronicle)
    (sound : Machine.Sound .own kinds ⟨scheduler, chronicle.board⟩) (ready : Machine.Inside ⟨scheduler, chronicle.board⟩)
    (sliced : Machine.Sliced Chronicle.board .own kinds scheduler chronicle action later moved middle notices) :
    if middle.transfer = some (.leave .frame) then Waiting moved else Between moved := by
  obtain ⟨cadent, quiet⟩ := between
  have draws := sliced.draws Chronicle.wraps few sound ready
  have entries := Chronicle.entries_of_slice sliced.sliced
  have units := elapsed_slice chronicle.entries ⟨⟨scheduler, chronicle.board⟩, ⟨middle, moved.board⟩, notices⟩ .ppu
  have raises := raised_slice chronicle.entries ⟨⟨scheduler, chronicle.board⟩, ⟨middle, moved.board⟩, notices⟩
  have frames : framesOf moved.entries = framesOf chronicle.entries := by
    rw [entries]
    simp
  rw [← entries] at units raises
  simp only at units
  have frame : moved.board.frame = .ofNat (framesOf moved.entries).length := by
    rw [((Board.slice_keeps _ _ _).of_ok (sliced.shown Chronicle.wraps)).2.2.2, frames]
    exact cadent.machine
  have balance := cadent.units
  have onTime : elapsed .ppu (slicesOf moved.entries) ≤ 305536 + (framesOf chronicle.entries).length * 357368 →
      Throughout OnTime moved.entries := by
    intro due
    rw [entries] at due ⊢
    apply cadent.past.snoc
    exact ⟨quiet, by simpa using due, cadent.machine, cadent.picture⟩
  -- The slice that hands over the frame steps nothing. Every other one draws what it steps.
  split at draws
  next raised =>
    obtain ⟨still, complete, handed⟩ := draws
    have full : moved.board.ppu.unitsLeft = 357368 := handed ▸ Ppu.handed_unitsLeft complete cadent.lined
    have nothing : chronicle.board.ppu.unitsLeft = 0 := by simp only [Ppu.unitsLeft, complete]
    rw [if_pos raised]
    refine ⟨⟨?_, frame, ?_, ?_, onTime ?_⟩, raises.mpr raised, full⟩
    · rw [frames]
      omega
    · rw [handed, frames, UInt64.ofNat_add]
      exact congrArg (· + 1) cadent.picture
    · rw [handed]
      intro impossible
      cases impossible
    · omega
  next silent =>
    obtain ⟨drawn, picture, lined⟩ := draws
    rw [if_neg silent]
    refine ⟨⟨?_, frame, ?_, lined cadent.lined, onTime ?_⟩, mt raises.mp silent⟩
    · rw [frames]
      omega
    · rw [picture, frames]
      exact cadent.picture
    · omega

/-- The host sees to a frame, and the count of the machine catches up with that of the display processor. -/
theorem Waiting.frame [Host ω] {chronicle : Chronicle} (waiting : Waiting chronicle) (cheats : List Cheat) (host : ω) :
    Between (chronicle.completeFrame cheats host).1 := by
  have drawn := waiting.drawn
  obtain ⟨cadent, raised, full⟩ := waiting
  have balance := cadent.units
  let after := (chronicle.board.completeFrame cheats host).1
  have entries : (chronicle.completeFrame cheats host).1.entries = chronicle.entries ++ [.frame chronicle.board after] := rfl
  have frames : (framesOf (chronicle.entries ++ [.frame chronicle.board after])).length =
      (framesOf chronicle.entries).length + 1 := by simp
  have machine : after.frame = .ofNat ((framesOf chronicle.entries).length + 1) := by
    rw [UInt64.ofNat_add]
    exact congrArg (· + 1) cadent.machine
  refine ⟨⟨?_, ?_, ?_, cadent.lined, ?_⟩, ?_⟩
  · rw [entries, frames, slicesOf_append, slicesOf_frame, slicesOf_nil, List.append_nil]
    exact balance
  · rw [entries, frames]
    exact machine
  · rw [entries, frames]
    exact cadent.picture
  · rw [entries]
    apply cadent.past.snoc
    exact ⟨raised, drawn, machine, cadent.picture⟩
  · rw [entries]
    exact not_raised_frame _ _ _

theorem upheld [Host ω] (few : kinds.length ≤ Cartridge.maxCoprocessors) (cheats : List Cheat) :
    Upheld (ω := ω) kinds Chronicle.board (Chronicle.completeFrame cheats) (fun _ chronicle _ => Between chronicle)
      (fun _ chronicle _ => Waiting chronicle) where
  slice _ _ _ sound ready between _ _ _ _ _ sliced := between.slice few sound ready sliced
  frame _ _ host _ waiting := waiting.frame cheats host
  hears _ _ _ _ between := between
  hears_due _ _ _ _ waiting := waiting
  board := ⟨cheats, fun _ _ => rfl⟩

end Cadent

namespace Console

theorem board_of_built [Host ω] {configuration : Configuration} {cartridge : Cartridge} {seed : UInt64} {host : ω} {console : Console}
    (built : (Console.new configuration cartridge seed host).1 = .ok console) (wram : Vector UInt8 0x2000) (ram : Vector UInt8 0x1000)
    (cheats : List Cheat) : (console.holding wram ram cheats).machine.board.ppu = Ppu.new ∧
      (console.holding wram ram cheats).machine.board.smp = { Smp.new with ram } ∧
      (console.holding wram ram cheats).machine.board.frame = 0 := by
  obtain ⟨_, _, machine⟩ := new_eq_ok built
  rw [holding, machine]
  exact ⟨rfl, rfl, rfl⟩

theorem between_of_built [Host ω] {configuration : Configuration} {cartridge : Cartridge} {seed : UInt64} {host : ω} {console : Console}
    (built : (Console.new configuration cartridge seed host).1 = .ok console) (wram : Vector UInt8 0x2000) (ram : Vector UInt8 0x1000)
    (cheats : List Cheat) : Cadent.Between ⟨(console.holding wram ram cheats).machine.board, []⟩ := by
  obtain ⟨picture, _, frame⟩ := board_of_built built wram ram cheats
  refine ⟨⟨?_, frame, ?_, ?_, .nil⟩, ?_⟩
  · rw [picture]
    simp [elapsed, Ppu.new, Ppu.unitsLeft, Ppu.linesLeft]
  · rw [picture]
    rfl
  · rw [picture]
    intro impossible
    cases impossible
  · simp [Raised]

/-- Every frame is handed over at its time, whatever a console is asked to do after power-on: the first one once the display
processor has drawn 224 lines, and all others 262 lines after the previous one. The host gets each of them once, before anything
else happens, and in between the counters of the machine and of the display processor show how many it got. -/
theorem frames_in_cadence [Host ω] {configuration : Configuration} {cartridge : Cartridge} {seed : UInt64} {host : ω}
    {console : Console} (built : (Console.new configuration cartridge seed host).1 = .ok console) (wram : Vector UInt8 0x2000)
    (ram : Vector UInt8 0x1000) (cheats : List Cheat) {budget : Nat} {requests : List Request} {υ : Type} [Host υ]
    {listener heard : υ} {last : Console}
    (operated : (console.holding wram ram cheats).operate budget requests listener = (.ok last, heard)) :
    ∃ entries, (console.holding wram ram cheats).chronicle budget requests listener = (.ok (last, entries), heard) ∧
      Throughout OnTime entries ∧ ¬ Raised entries ∧
      last.machine.board.frame = .ofNat (framesOf entries).length ∧
      last.machine.board.ppu.frame = .ofNat (framesOf entries).length ∧
      ∀ log : υ → List (Framebuffer × Array Int16), Logs log → log heard = log listener ++ framesOf entries := by
  obtain ⟨entries, written⟩ := chronicle_of_operate operated
  obtain ⟨few, _⟩ := new_eq_ok built
  have sound := (fresh_of_built built wram ram cheats).sound
  have begins := between_of_built built wram ram cheats
  obtain ⟨_, cadent, quiet⟩ := upheld_of_chronicle (Cadent.upheld few cheats) few sound begins written
  exact ⟨entries, written, cadent.past, quiet, cadent.machine, cadent.picture,
    fun log logs => log_of_chronicle logs few sound written⟩

theorem frames_in_cadence_switched_on : ∃ budget last heard,
    (sample.holding (Vector.replicate 0x2000 2) (Vector.replicate 0x1000 1) []).operate budget [.run, .save, .run] () =
        (.ok last, heard) ∧
      ∃ entries, (sample.holding (Vector.replicate 0x2000 2) (Vector.replicate 0x1000 1) []).chronicle budget [.run, .save, .run] () =
          (.ok (last, entries), heard) ∧ Throughout OnTime entries := by
  have built : (Console.new Configuration.standard sample.cartridge 0 ()).1 = .ok sample := new_eq rfl Configuration.standard 0 ()
  obtain ⟨last, _, heard, watched, _⟩ := watch_fast built rfl (Vector.replicate 0x2000 2) (Vector.replicate 0x1000 1) []
    (Nat.lt_succ_self _) [.run, .save, .run] ()
  have operated := operate_of_watch watched
  obtain ⟨entries, written, onTime, _⟩ :=
    frames_in_cadence built (Vector.replicate 0x2000 2) (Vector.replicate 0x1000 1) [] operated
  exact ⟨_, last, heard, operated, entries, written, onTime⟩

end Console

end MultiClock
