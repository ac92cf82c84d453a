import MultiClock.Text.Lossy
import MultiClock.Word

/-! Sound as a wave file: a header of 44 bytes, then the samples of one channel with 16 bits
each. -/

namespace MultiClock.Wave

open Text

/-- Bytes of the header. -/
def headerSize : Nat := 44

def encode (sampleRate : Nat) (samples : Array Int16) : Array UInt8 :=
  let dataSize := 2 * samples.size
  let word (size value : Nat) := pushBytes size value #[]
  let header :=
    utf8Bytes "RIFF" ++ word 4 (headerSize - 8 + dataSize) ++ utf8Bytes "WAVE" ++
    utf8Bytes "fmt " ++ word 4 16 ++ word 2 1 ++ word 2 1 ++ word 4 sampleRate ++
      word 4 (2 * sampleRate) ++ word 2 2 ++ word 2 16 ++
    utf8Bytes "data" ++ word 4 dataSize
  samples.foldl (fun bytes sample => pushBytes 2 (Word.toNat sample) bytes) header

end MultiClock.Wave
