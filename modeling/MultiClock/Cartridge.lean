import MultiClock.Chip.Coprocessor

/-! The cartridge that a machine is built for: its title, the coprocessors on it, and a program that
is loaded into work memory at power-on. -/

namespace MultiClock

structure Cartridge where
  title : String
  /-- In the order in which they are attached to the reference processor. -/
  coprocessors : List CoprocessorKind
  program : Array UInt8
deriving DecidableEq, Repr

namespace Cartridge

instance : Inhabited Cartridge := ⟨⟨"", [], #[]⟩⟩

/-- The most coprocessors that a cartridge can carry. -/
def maxCoprocessors : Nat := 4

/-- Why no machine can be built for a cartridge. -/
inductive Problem
  | tooManyCoprocessors (count : Nat)
  | programTooLong (size : Nat)
deriving DecidableEq, Repr

def Problem.message : Problem → String
  | tooManyCoprocessors count =>
    toString count ++ " coprocessors, at most " ++ toString maxCoprocessors ++ " are supported"
  | programTooLong size => "Program of " ++ toString size ++ " bytes does not fit into work RAM"

def validate (cartridge : Cartridge) : Except Problem Unit := do
  if maxCoprocessors < cartridge.coprocessors.length then
    throw (.tooManyCoprocessors cartridge.coprocessors.length)
  if Bus.wramSize < cartridge.program.size then
    throw (.programTooLong cartridge.program.size)

end Cartridge
end MultiClock
