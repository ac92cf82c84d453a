import MultiClock.Proofs.Acceptance
import MultiClock.Proofs.RoundTrips

/-! Snapshots that are loaded and written again. Many bytes stand for one machine; what a console writes of it is tidy, and
tidy bytes stay as they are from then on. -/

namespace MultiClock

open Visit Snapshot

variable {loads : Loads} {kinds : List CoprocessorKind} {data : Array UInt8}

def Snapshot.Header.text (bytes : List UInt8) : String := FixedText.decode (slice bytes 24 512).toArray

namespace Console

variable {console : Console} {portable : Bool} {machine : Machine} {first body : List UInt8} {header : Header}

theorem save_written [Host ω] {console later : Console} {data : Array UInt8} {description : String} (budget : Nat)
    (written : console.writeSnapshot false description = (data, later)) (listener : ω) :
    ∃ told, console.save budget false description listener = (.ok (data, later), told) := by
  obtain ⟨told, saved⟩ : ∃ told, console.save budget false description listener =
      (.ok (console.writeSnapshot false description), told) := console.save_instant description listener
  exact ⟨told, written ▸ saved⟩

end Console
end MultiClock
