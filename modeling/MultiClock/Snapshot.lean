import MultiClock.Serial.FixedText
import MultiClock.Serial.Serializer
import MultiClock.Text.Numeral
import MultiClock.Text.Quoted

/-! The header of a snapshot, and why a snapshot is refused. The body that follows the header only
means something to the build that wrote it. -/

namespace MultiClock

open Text

inductive SnapshotError
  | invalidSignature (signature : UInt32)
  | sizeMismatch (expected found : Nat)
  | versionMismatch (expected found : String)
  | truncated
  | invalidValue (field : String)
deriving DecidableEq, Repr

def SnapshotError.message : SnapshotError → String
  | invalidSignature signature => "invalid snapshot signature 0x" ++ hexLower 8 signature.toNat
  | sizeMismatch expected found =>
    "snapshot size mismatch (expected " ++ toString expected ++ " bytes, found " ++
      toString found ++ " bytes)"
  | versionMismatch expected found =>
    "snapshot version mismatch (expected " ++ quoted expected ++ ", found " ++ quoted found ++ ")"
  | truncated => "snapshot truncated"
  | invalidValue field => "invalid value for " ++ field

namespace Snapshot

structure Header where
  signature : UInt32
  /-- Size of the whole snapshot, header included. -/
  size : UInt32
  version : Vector UInt8 16
  description : Vector UInt8 512
  /-- The snapshot was taken at a consistent instant and holds no continuations. -/
  portable : Bool
  reserved : Bool
deriving DecidableEq

namespace Header

/-- The text SRS1 as a word. -/
def signatureWord : UInt32 := 0x31535253

/-- The build that writes the snapshots. -/
def buildVersion : String := "sres 0.1.0"

/-- Bytes of a header. -/
def byteSize : Nat := 538

def new (size : Nat) (portable : Bool) (description : String) : Header where
  signature := signatureWord
  size := UInt32.ofNat size
  version := FixedText.encode 16 buildVersion
  description := FixedText.encode 512 description
  portable := portable
  reserved := false

def versionText (header : Header) : String := FixedText.decode header.version.toArray

def descriptionText (header : Header) : String := FixedText.decode header.description.toArray

instance : Serializable Header where
  serialize header := do
    let signature ← Serializer.word header.signature
    let size ← Serializer.word header.size
    let version ← Serializer.bytes header.version
    let description ← Serializer.bytes header.description
    let portable ← Serializer.boolean header.portable
    let reserved ← Serializer.boolean header.reserved
    return { signature, size, version, description, portable, reserved }

/-- Reads the header of a snapshot. Only the signature is checked, and only if it is there. -/
def parse (data : Array UInt8) : Except SnapshotError Header :=
  let (header, s) := Serializable.serialize (new 0 false "") (Serializer.load data)
  if 4 ≤ data.size ∧ header.signature ≠ signatureWord then
    .error (.invalidSignature header.signature)
  else if s.overrun then .error .truncated
  else .ok header

/-- Only snapshots of this very build can be loaded. -/
def checkVersion (header : Header) : Except SnapshotError Unit :=
  if header.version = FixedText.encode 16 buildVersion then .ok ()
  else .error (.versionMismatch buildVersion header.versionText)

end Header
end Snapshot
end MultiClock
