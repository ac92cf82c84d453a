import MultiClock.Picture.Framebuffer
import MultiClock.Word

/-! Pictures as Targa files. Pixels are written in packets: a packet holds either one pixel that is
repeated or a sequence of pixels. -/

namespace MultiClock.Targa

/-- The most pixels that a packet stands for. -/
def packetLimit : Nat := 128

/-- The pixels of the packet that is being collected, the newest first. -/
structure Packet where
  repeats : Bool
  pixels : List Rgba32

namespace Packet

def empty : Packet := ⟨true, []⟩

def pushPixel (pixel : Rgba32) (bytes : Array UInt8) : Array UInt8 :=
  (((bytes.push pixel.blue).push pixel.green).push pixel.red).push pixel.alpha

/-- Appends the packet. Its first byte tells how many pixels it stands for, and whether one of them
is repeated. -/
def write (packet : Packet) (bytes : Array UInt8) : Array UInt8 :=
  let count := UInt8.ofNat (packet.pixels.length - 1)
  match packet.repeats, packet.pixels with
  | _, [] => bytes
  | true, pixel :: _ => pushPixel pixel (bytes.push (0x80 ||| count))
  | false, pixels => pixels.foldr pushPixel (bytes.push count)

/-- Adds a pixel, where `same` says whether it equals the one before. A packet ends in front of it
if the two kinds of packets meet there, and behind it if it is full. -/
def add (same : Bool) (pixel : Rgba32) (packet : Packet) (bytes : Array UInt8) :
    Packet × Array UInt8 :=
  let (packet, bytes) :=
    if same == packet.repeats || packet.pixels.isEmpty then (packet, bytes)
    else (⟨same, []⟩, packet.write bytes)
  let packet : Packet := ⟨packet.repeats, pixel :: packet.pixels⟩
  if packet.pixels.length = packetLimit then (empty, packet.write bytes) else (packet, bytes)

end Packet

/-- Packets of true colors, from the upper left corner on, with eight bits of alpha. -/
def header : Array UInt8 :=
  let size := pushBytes 2 Framebuffer.height (pushBytes 2 Framebuffer.width #[])
  #[0, 0, 10] ++ Array.replicate 9 0 ++ size ++ #[32, 0x28]

def encode (picture : Framebuffer) : Array UInt8 :=
  let step := fun (before, packet, bytes) pixel =>
    (some pixel, Packet.add (before == some pixel) pixel packet bytes)
  let (_, packet, bytes) := picture.toRgba.toArray.foldl step (none, Packet.empty, header)
  packet.write bytes

end MultiClock.Targa
