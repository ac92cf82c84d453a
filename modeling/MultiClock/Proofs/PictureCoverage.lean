import Mathlib.Data.List.FinRange
import Mathlib.Data.List.Nodup
import MultiClock.Proofs.Courses
import MultiClock.Proofs.ExactClocks
import MultiClock.Proofs.FrameCadence

/-! What is drawn from one frame to the next. A slice draws a strip of a visible line, and the strips of all slices up to a frame event
follow each other without a gap or an overlap, whatever happens to the bus and the other chips between two slices. -/

namespace MultiClock

namespace Framebuffer

/-- A column and a row. -/
abbrev Cell := Fin 256 × Fin 224

def row (y : Fin 224) : List Cell := (List.finRange 256).map (·, y)

/-- Every cell of the rows from a number on, row by row. -/
def rowsFrom (number : Nat) : List Cell := ((List.finRange 224).drop number).flatMap row

def cells : List Cell := rowsFrom 0

theorem rowsFrom_visible {number : Nat} (visible : number < 224) :
    rowsFrom number = row ⟨number, visible⟩ ++ rowsFrom (number + 1) := by
  rw [rowsFrom, List.drop_eq_getElem_cons (by simpa using visible), List.flatMap_cons, List.getElem_finRange]
  rfl

theorem rowsFrom_below : rowsFrom 224 = [] := by
  rw [rowsFrom, List.drop_eq_nil_of_le (by simp)]
  rfl

/-- Colors some cells, one after another. -/
def paint (color : Cell → Rgb15) (picture : Framebuffer) (cells : List Cell) : Framebuffer :=
  cells.foldl (fun picture cell => picture.set cell.1 cell.2 (color cell)) picture

end Framebuffer

namespace Ppu
open Framebuffer

/-- The color of a cell: the byte of work memory behind it, with the low bits set by one of the byte's own bits. -/
def pixel (bus : Bus) (cell : Cell) : Rgb15 :=
  have inside : 32 * cell.2.val + cell.1.val / 8 < 0x2000 := by omega
  let byte := bus.wram[32 * cell.2.val + cell.1.val / 8]
  let low : UInt16 := if byte.toNat.testBit (cell.1.val % 8) then 0x1F else 0x08
  ⟨((byte.toUInt16 <<< 5) ^^^ low) &&& 0x7FFF⟩

theorem shade_source (bus : Bus) (x : Fin 256) (y : Fin 224) : shade (source bus x y) x = pixel bus (x, y) := by
  have place : (Bus.wramIndex (UInt16.ofNat (y.val * 32 + x.val / 8))).val = 32 * y.val + x.val / 8 := by
    simp only [Bus.wramIndex, UInt16.toNat_ofNat']
    omega
  have byte : source bus x y = bus.wram[32 * y.val + x.val / 8] := by
    simp only [source, Bus.readWram, Fin.getElem_fin, place]
  have bit (byte : UInt8) : (byte.toUInt16 >>> UInt16.ofNat (x.val % 8)) % 2 = 0 ↔ byte.toNat.testBit (x.val % 8) = false := by
    rw [← UInt16.toNat_inj]
    simp only [UInt16.toNat_mod, UInt16.toNat_shiftRight, UInt8.toNat_toUInt16, UInt16.toNat_ofNat', UInt16.reduceToNat,
      Nat.testBit, Nat.one_and_eq_mod_two]
    rw [show x.val % 8 % 2 ^ 16 % 16 = x.val % 8 by omega]
    simp
  simp only [shade, pixel, byte]
  by_cases set : (bus.wram[32 * y.val + x.val / 8]).toNat.testBit (x.val % 8) = true
  · rw [if_pos set, if_neg (mt (bit _).mp (by simp [set]))]
  · rw [if_neg set, if_pos ((bit _).mpr (by simpa using set))]

theorem drawDots_eq (bus : Bus) (y : Fin 224) (count x : Nat) (picture : Framebuffer) :
    drawDots bus y count x picture = picture.paint (pixel bus) (((List.finRange 256).drop x).take count |>.map (·, y)) := by
  induction count generalizing x picture with
  | zero => rfl
  | succ count ih =>
    rw [drawDots, ih]
    by_cases inside : x < 256
    · have next : (List.finRange 256).drop x = ⟨x, inside⟩ :: (List.finRange 256).drop (x + 1) := by
        rw [List.drop_eq_getElem_cons (by rwa [List.length_finRange]), List.getElem_finRange]
        rfl
      rw [next, dif_pos inside, shade_source bus ⟨x, inside⟩ y]
      rfl
    · have beyond (n : Nat) (past : 256 ≤ n) : (List.finRange 256).drop n = [] := List.drop_eq_nil_of_le (by simpa using past)
      rw [dif_neg inside, beyond x (by omega), beyond (x + 1) (by omega), List.take_nil, List.take_nil]

/-- The cells under the next dots of a line. -/
def dots (line dot count : Nat) : List Cell :=
  if visible : line < 224 then ((List.finRange 256).drop dot).take count |>.map (·, ⟨line, visible⟩) else []

theorem draw_eq (bus : Bus) (line : UInt16) (count x : Nat) (picture : Framebuffer) :
    draw bus line count x picture = picture.paint (pixel bus) (dots line.toNat x count) := by
  unfold draw dots
  split
  · exact drawDots_eq _ _ _ _ _
  · rfl

/-- The visible cells that the next slice covers. -/
def strip (ppu : Ppu) : List Cell :=
  match ppu.continuation with
  | .line dot => dots ppu.line.toNat dot dotsPerSlice
  | .idle | .frame | .endOfLine => []

/-- The cells that have yet to be drawn until the picture is complete. -/
def undrawn (ppu : Ppu) : List Cell :=
  match ppu.continuation with
  | .idle | .endOfLine => rowsFrom (if ppu.line.toNat < 224 then ppu.line.toNat else 0)
  | .line dot => dots ppu.line.toNat dot 256 ++ rowsFrom (if ppu.line.toNat < 224 then ppu.line.toNat + 1 else 0)
  | .frame => []

/-- How a slice gets on with a line. -/
inductive Draws (bus : Bus) (before : Ppu) : Ppu → Action → Prop
  | stop (idle : before.continuation = .idle) : Draws bus before before .stop
  | pass (idle : before.continuation = .idle) : Draws bus before { before with continuation := .line 0 } .pass
  | dots (dot : Fin 341) (units : UInt32) (working : 0 < units.toNat) (at_dot : before.continuation = .line dot)
      (more : dot + dotsPerSlice < 341) :
      Draws bus before
        { before with
          picture := before.picture.paint (pixel bus) (Ppu.dots before.line.toNat dot dotsPerSlice)
          continuation := .line ⟨dot + dotsPerSlice, more⟩ } (.step units)
  | last (dot : Fin 341) (units : UInt32) (working : 0 < units.toNat) (at_dot : before.continuation = .line dot)
      (few : 341 ≤ dot + dotsPerSlice) (line : UInt16) (next : line.toNat = before.line.toNat + 1) :
      Draws bus before
        { before with
          line, picture := before.picture.paint (pixel bus) (Ppu.dots before.line.toNat dot dotsPerSlice)
          continuation := if line = visibleLines then .frame else .endOfLine } (.step units)
  | frame (raised : before.continuation = .frame) : Draws bus before before.handed .frame
  | wrap (action : Action) (quiet : action = .rest ∨ action = .resume .cpu) (ended : before.continuation = .endOfLine) :
      Draws bus before { before with line := if linesPerFrame ≤ before.line then 0 else before.line, continuation := .idle } action

/-- Right of the picture there is nothing to draw, so a short slice covers what a full one would. -/
theorem dots_short {dot : Nat} (few : 341 ≤ dot + dotsPerSlice) (line count : Nat) : dots line dot count = [] := by
  have beyond : (List.finRange 256).drop dot = [] := by
    apply List.drop_eq_nil_of_le
    simp only [dotsPerSlice] at few
    rw [List.length_finRange]
    omega
  simp [dots, beyond]

theorem dots_cut (line dot count : Nat) : dots line dot 256 = dots line dot count ++ dots line (dot + count) 256 := by
  unfold dots
  split
  next visible =>
    have whole (n : Nat) : ((List.finRange 256).drop n).take 256 = (List.finRange 256).drop n := by
      apply List.take_of_length_le
      rw [List.length_drop, List.length_finRange]
      omega
    rw [whole, whole, ← List.map_append, ← List.drop_drop, List.take_append_drop]
  next => rfl

theorem dots_row {line : Nat} (visible : line < 224) : dots line 0 256 = row ⟨line, visible⟩ := by
  rw [dots, dif_pos visible, List.drop_zero, List.take_of_length_le (by rw [List.length_finRange]), row]

theorem dots_below {line : Nat} (below : ¬ line < 224) (dot count : Nat) : dots line dot count = [] := dif_neg below

/-- The last slice of a line may be a short one, and covers what a full one would. -/
theorem Moves.draws {cx : Context} {before after : Ppu} {action : Action} (moves : before.Moves cx after action) :
    before.Draws cx.bus after action := by
  cases moves with
  | stop idle => exact .stop idle
  | pass idle => exact .pass idle
  | dots dot units at_dot more spent =>
    rw [draw_eq]
    exact .dots dot units (spent ▸ Nat.succ_pos _) at_dot more
  | last dot units line at_dot few spent next =>
    have inside := dot.isLt
    rw [draw_eq, dots_short few, ← dots_short few before.line.toNat dotsPerSlice]
    exact .last dot units (by omega) at_dot few line next
  | frame raised => exact .frame raised
  | wrap ended defers => cases defers with
    | rest => exact .wrap _ (.inl rfl) ended
    | resume => exact .wrap _ (.inr rfl) ended

theorem slice_draws (ppu : Ppu) (cx : Context) :
    Meets (fun _ => True) (fun result => ∃ action, cx.Does action result.2 ∧ ppu.Draws cx.bus result.1 action) (Chip.slice ppu cx) := by
  refine ((ppu.slice_moves cx).permit fun _ _ => trivial).mono ?_
  rintro result ⟨_, action, does, moves⟩
  exact ⟨action, does, moves.draws⟩

section draws
variable {bus : Bus} {before after : Ppu} {action : Action} (draws : before.Draws bus after action)
include draws

/-- A slice colors the cells that it covers, and no others. -/
theorem Draws.picture : after.picture = before.picture.paint (pixel bus) before.strip := by
  cases draws with
  | stop idle | pass idle => simp only [strip, idle, paint, List.foldl_nil]
  | dots dot units working at_dot more => simp only [strip, at_dot]
  | last dot units working at_dot few line next => simp only [strip, at_dot]
  | frame raised => simp only [strip, raised, paint, List.foldl_nil, handed]
  | wrap _ quiet ended => simp only [strip, ended, paint, List.foldl_nil]

theorem Draws.lined (lined : before.Lined) : after.Lined := by
  cases draws with
  | stop => exact lined
  | pass | dots | frame | wrap => exact fun raised => nomatch raised
  | last dot units working at_dot few line next =>
    intro raised
    by_contra other
    simp [show line ≠ visibleLines from other] at raised

/-- Up to the frame event, what a slice covers is no longer left. -/
theorem Draws.undrawn (silent : action ≠ .frame) : before.undrawn = before.strip ++ after.undrawn := by
  cases draws with
  | stop idle => simp only [strip, idle, List.nil_append]
  | pass idle =>
    simp only [Ppu.undrawn, strip, idle, List.nil_append, Fin.val_zero]
    by_cases visible : before.line.toNat < 224
    · rw [if_pos visible, if_pos visible, dots_row visible, rowsFrom_visible visible]
    · rw [if_neg visible, if_neg visible, dots_below visible, List.nil_append]
  | dots dot units working at_dot more =>
    simp only [Ppu.undrawn, strip, at_dot]
    rw [dots_cut _ dot.val dotsPerSlice, List.append_assoc]
  | last dot units working at_dot few line next =>
    simp only [Ppu.undrawn, strip, at_dot, dots_short few, List.nil_append]
    -- Behind the last visible line nothing is left to draw, behind an invisible one the whole picture is.
    by_cases last : line = visibleLines
    · have drawn : before.line.toNat = 223 := by
        rw [last] at next
        simp only [visibleLines, UInt16.reduceToNat] at next
        omega
      simp only [if_pos last, drawn, Nat.reduceLT, if_true, Nat.reduceAdd, rowsFrom_below]
    · have more : before.line.toNat ≠ 223 := by
        intro drawn
        refine last (UInt16.toNat_inj.mp ?_)
        rw [next, drawn]
        rfl
      have same : (if before.line.toNat < 224 then before.line.toNat + 1 else 0) = if line.toNat < 224 then line.toNat else 0 := by
        split <;> split <;> omega
      simp only [if_neg last, same]
  | frame raised => exact absurd rfl silent
  | wrap _ quiet ended =>
    simp only [Ppu.undrawn, strip, ended, List.nil_append]
    by_cases wraps : linesPerFrame ≤ before.line
    · have past := UInt16.le_iff_toNat_le.mp wraps
      simp only [linesPerFrame, UInt16.reduceToNat] at past
      rw [if_pos wraps, if_neg (by omega)]
      rfl
    · rw [if_neg wraps]

end draws

/-- The slice asked to leave for a frame. -/
def Raises (episode : Episode Ppu) : Prop := episode.asked = some (.leave .frame)

theorem happens_draws {episode : Episode Ppu} (happens : episode.Happens) :
    ∃ action, episode.before.Draws episode.given.bus episode.after action ∧ (Raises episode ↔ action = .frame) := by
  obtain ⟨action, does, draws⟩ := (episode.before.slice_draws episode.given).of_ok happens
  refine ⟨action, draws, ?_⟩
  rw [Raises, Episode.asked_of_does does]
  exact Action.request_eq_frame

section course
variable {first last : Ppu} {episodes : List (Episode Ppu)}

end course

/-- Where a new picture begins: at the first line, or right after a frame event. That one was not waiting in the middle of a picture
when the chip began, which only a snapshot could bring about that no chip has taken. -/
inductive Opens : Ppu → Prop
  | top {ppu : Ppu} (line : ppu.line = 0) (idle : ppu.continuation = .idle) : Opens ppu
  | framed {first last : Ppu} {episodes : List (Episode Ppu)} {event : Episode Ppu} (lined : first.Lined)
      (course : Course first (episodes ++ [event]) last) (raised : Raises event) : Opens last

theorem Opens.place {ppu : Ppu} (opens : ppu.Opens) :
    ppu.line = 0 ∧ ppu.continuation = .idle ∨ ppu.line = visibleLines ∧ ppu.continuation = .endOfLine := by
  cases opens with
  | top line idle => exact .inl ⟨line, idle⟩
  | framed lined course raised =>
    obtain ⟨begins, happens, rfl⟩ := course.final
    have waiting := (begins.keeps (fun _ happens => (happens_draws happens).choose_spec.1.lined) lined).2
    obtain ⟨action, draws, raises⟩ := happens_draws happens
    cases raises.mp raised
    generalize Episode.after _ = after at draws ⊢
    cases draws with
    | frame at_frame => exact .inr ⟨waiting at_frame, rfl⟩
    | wrap _ quiet => rcases quiet with impossible | impossible <;> cases impossible

theorem Opens.undrawn {ppu : Ppu} (opens : ppu.Opens) : ppu.undrawn = cells := by
  rcases opens.place with ⟨line, at_work⟩ | ⟨line, at_work⟩
  all_goals
    simp only [Ppu.undrawn, at_work, line]
    rfl

theorem Opens.bounded {ppu : Ppu} (opens : ppu.Opens) : ppu.Bounded .any := by
  rcases opens.place with ⟨line, at_work⟩ | ⟨line, at_work⟩
  all_goals
    simp only [Bounded, at_work, line]
    decide

/-- How many more slices there can be without a step. -/
def Continuation.rank : Continuation → Nat
  | idle => 1
  | line _ | frame => 0
  | endOfLine => 2

theorem Continuation.rank_le (continuation : Continuation) : continuation.rank ≤ 2 := by cases continuation <;> simp [rank]

theorem slice_returns {ppu : Ppu} {cx : Context} (ready : cx.Ready) (dependent : cx.thread ≠ .cpu) (calm : cx.Calm)
    (bounded : ppu.Bounded .any) :
    ∃ later left, Chip.slice ppu cx = .ok (later, left) ∧ later.Bounded .any := by
  obtain ⟨⟨later, left⟩, happens, _, _, _, kept⟩ := (slice_turns .any ppu cx).exists_ok fun fault excused =>
    (excused.2 ⟨ready, dependent, bounded⟩).2 calm
  exact ⟨later, left, happens, kept bounded⟩

end Ppu
end MultiClock
