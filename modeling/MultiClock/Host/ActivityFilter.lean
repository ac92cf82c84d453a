import MultiClock.Scheduler.Activity
import MultiClock.Text.Blank
import MultiClock.Text.Quoted

/-! Filters select activities of the scheduler. A filter names a kind of activity and, after a
blank, the thread or the event that it is limited to. -/

namespace MultiClock

open Text

/-- Without an argument a filter accepts any thread or event. -/
inductive ActivityFilter
  /-- Control is transferred to a thread. -/
  | resume (target : Option ThreadId)
  /-- Control returns to the host. -/
  | leave (event : Option Event)
  /-- A thread steps its clock. -/
  | step (thread : Option ThreadId)
deriving DecidableEq, Repr

namespace ActivityFilter

def accepts : ActivityFilter → Activity → Bool
  | resume expected, .resume _ target => expected.all (· == target)
  | leave expected, .leave _ event => expected.all (· == event)
  | step expected, .step thread _ _ => expected.all (· == thread)
  | _, _ => false

def renderArgument (name : α → String) : Option α → String
  | some argument => " " ++ name argument
  | none => ""

def render : ActivityFilter → String
  | resume target => "resume" ++ renderArgument ThreadId.name target
  | leave event => "leave" ++ renderArgument Event.name event
  | step thread => "step" ++ renderArgument ThreadId.name thread

inductive Problem
  | unknown (text : String)
  | badThread (argument : String) (cause : ThreadId.NameError)
  | badEvent (argument : String)
deriving DecidableEq, Repr

def Problem.message : Problem → String
  | unknown text => "Unknown event filter " ++ quoted text
  | badThread argument cause =>
    "Invalid filter argument " ++ quoted argument ++ ": " ++ cause.summary
  | badEvent argument =>
    "Invalid filter argument " ++ quoted argument ++ ": Matching variant not found"

def parseThread (argument : String) : Except Problem ThreadId :=
  match ThreadId.parse argument with
  | .ok thread => .ok thread
  | .error cause => .error (.badThread argument cause)

def parseEvent (argument : String) : Except Problem Event :=
  match Event.parse? argument with
  | some event => .ok event
  | none => .error (.badEvent argument)

/-- An argument may be missing. -/
def parseOptional (parse : String → Except Problem α) (argument : List Char) : Except Problem (Option α) :=
  if argument.isEmpty then .ok none else some <$> parse (String.ofList argument)

/-- Case does not matter, nor do blanks around the kind and the argument. -/
def parse (text : String) : Except Problem ActivityFilter := do
  let words := trimmed text.toList
  let (kind, argument) := (splitOnce ' ' words).getD (words, [])
  let argument := trimmed argument
  match lowered kind with
  | ['r', 'e', 's', 'u', 'm', 'e'] => return resume (← parseOptional parseThread argument)
  | ['l', 'e', 'a', 'v', 'e'] => return leave (← parseOptional parseEvent argument)
  | ['s', 't', 'e', 'p'] => return step (← parseOptional parseThread argument)
  | _ => throw (.unknown text)

end ActivityFilter
end MultiClock
