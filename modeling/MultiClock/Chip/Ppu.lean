import MultiClock.Chip

/-! The display processor. It renders one scanline per unit of work from work memory, a few dots per
slice, and leaves to the host right after the last visible line. Its synchronization point is at the
start of every line; at the end of a line it lets the reference catch up. -/

namespace MultiClock

namespace Ppu

/-- Clock units of one dot. -/
def dotUnits : UInt32 := 4

def dotsPerLine : Nat := 341

def linesPerFrame : UInt16 := 262

def visibleLines : UInt16 := 224

/-- Dots rendered in one slice. -/
def dotsPerSlice : Nat := 8

/-- Progress through the current line. -/
inductive Continuation
  /-- At the start of the line. -/
  | idle
  /-- In front of a dot. -/
  | line (dot : Fin 341)
  /-- The last visible line is complete, and the host has to hear of it. -/
  | frame
  | endOfLine
deriving DecidableEq, Repr

namespace Continuation

/-- A tag and a dot. -/
def encode : Continuation → UInt8 × UInt16
  | idle => (0, 0)
  | line dot => (1, UInt16.ofNat dot)
  | frame => (2, 0)
  | endOfLine => (3, 0)

def decode? (tag : UInt8) (dot : UInt16) : Option Continuation :=
  match tag.toNat with
  | 0 => some idle
  | 1 => if h : dot.toNat < 341 then some (line ⟨dot.toNat, h⟩) else none
  | 2 => some frame
  | 3 => some endOfLine
  | _ => none

def serialize (continuation : Continuation) : Visit Continuation := do
  let (tag, dot) := continuation.encode
  let tag ← Serializer.word tag
  let dot ← Serializer.word dot
  match decode? tag dot with
  | some continuation => return continuation
  | none =>
    Serializer.reject "ppu continuation"
    return idle

end Continuation
end Ppu

structure Ppu where
  line : UInt16
  /-- Frames completed since power-on. -/
  frame : UInt64
  picture : Framebuffer
  continuation : Ppu.Continuation

namespace Ppu

def new : Ppu := ⟨0, 0, Framebuffer.black, .idle⟩

instance : Inhabited Ppu := ⟨new⟩

/-- The color that a byte of work memory gives to the column `x`, which picks one of its bits. -/
def shade (byte : UInt8) (x : Nat) : Rgb15 :=
  let bits := byte.toUInt16
  let low : UInt16 := if (bits >>> UInt16.ofNat (x % 8)) % 2 = 0 then 0x08 else 0x1F
  ⟨((bits <<< 5) ^^^ low) &&& 0x7FFF⟩

/-- The byte of work memory behind a dot: 32 bytes per line, one bit per dot. -/
def source (bus : Bus) (x y : Nat) : UInt8 := bus.readWram (UInt16.ofNat (y * 32 + x / 8))

/-- Draws a run of dots of a visible line. Dots right of the picture are not shown. -/
def drawDots (bus : Bus) (y : Fin 224) : (count x : Nat) → Framebuffer → Framebuffer
  | 0, _, picture => picture
  | count + 1, x, picture =>
    let picture :=
      if h : x < 256 then picture.set ⟨x, h⟩ y (shade (source bus x y) x) else picture
    drawDots bus y count (x + 1) picture

/-- Draws a run of dots of a line. Lines below the picture are not shown. -/
def draw (bus : Bus) (line : UInt16) (count x : Nat) (picture : Framebuffer) : Framebuffer :=
  if h : line.toNat < 224 then drawDots bus ⟨line.toNat, h⟩ count x picture else picture

/-- After the last dot of a line. -/
def endLine (ppu : Ppu) : Except Fault Ppu := do
  let line ← Checked.add16 ppu.line 1
  return { ppu with line, continuation := if line = visibleLines then .frame else .endOfLine }

/-- Draws the next dots of a line. -/
def render (ppu : Ppu) (dot : Fin 341) (cx : Context) : Except Fault (Ppu × Context) := do
  let count := min dotsPerSlice (dotsPerLine - dot)
  let ⟨line, frame, picture, continuation⟩ := ppu
  let ppu : Ppu := ⟨line, frame, draw cx.bus line count dot picture, continuation⟩
  let cx ← cx.step (UInt32.ofNat count * dotUnits)
  if h : dot + count < 341 then
    return ({ ppu with continuation := .line ⟨dot + count, h⟩ }, cx)
  return (← ppu.endLine, cx)

def slice (ppu : Ppu) (cx : Context) : Except Fault (Ppu × Context) := do
  match ppu.continuation with
  | .idle =>
    let (passed, cx) ← cx.synchronizePoint
    return if passed then ({ ppu with continuation := .line 0 }, cx) else (ppu, cx)
  | .line dot => ppu.render dot cx
  | .frame =>
    let cx ← cx.leave .frame
    return ({ ppu with frame := ppu.frame + 1, continuation := .endOfLine }, cx)
  | .endOfLine =>
    let (_, cx) ← cx.synchronizeCpu
    let line := if linesPerFrame ≤ ppu.line then 0 else ppu.line
    return ({ ppu with line, continuation := .idle }, cx)

def serialize (ppu : Ppu) : Visit Ppu := do
  let ⟨line, frame, picture, continuation⟩ := ppu
  let line ← Serializer.word line
  let frame ← Serializer.word frame
  let picture ← Serializable.serialize picture
  let line ← Serializer.require "ppu line" (line ≤ linesPerFrame) line 0
  return ⟨line, frame, picture, continuation⟩

instance : Chip Ppu where
  frequency _ := Clock.cpuFrequency
  power _ seeding := (new, seeding)
  slice := slice
  serialize := serialize
  serializeStack ppu := do return { ppu with continuation := ← ppu.continuation.serialize }
  atBoundary ppu := ppu.continuation == .idle

end Ppu
end MultiClock
