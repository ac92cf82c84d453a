/-! Why a JSON text is refused: where it went wrong and what was wrong there. Reading stops at the
first problem in the order of the text. -/

namespace MultiClock.Json

inductive Cause
  /-- The text breaks the grammar. -/
  | malformed
  /-- The text ends too early. -/
  | ended
  /-- The text follows the grammar so far, but this value is not one that is wanted here. -/
  | unsuitable
deriving DecidableEq, Repr

/-- One step from a value to a part of it. -/
inductive Step
  | field (name : String)
  | item (index : Nat)
  /-- To a member of an object whose name could not be read. -/
  | unnamed
deriving DecidableEq, Repr

structure Problem where
  /-- From the whole text to the value that was being read. -/
  path : List Step
  cause : Cause
deriving DecidableEq, Repr

def Step.render : Step → String
  | field name => name
  | item index => "[" ++ toString index ++ "]"
  | unnamed => "?"

/-- Names are separated by points, and numbers of items follow immediately. -/
def renderSteps : List Step → String
  | [] => ""
  | .item index :: rest => (Step.item index).render ++ renderSteps rest
  | step :: rest => "." ++ step.render ++ renderSteps rest

/-- The path as text, which is a single point for the whole text. -/
def Problem.pathText (problem : Problem) : String :=
  match problem.path with
  | [] => "."
  | step :: rest => step.render ++ renderSteps rest

end MultiClock.Json
