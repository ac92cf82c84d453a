import MultiClock.Host.ActivityFilter
import MultiClock.Recent

/-! Debuggers keep the activities that one of their log points accepts, so that a front end can show
how the chips were interleaved. All debuggers share one switch: while it is off, activities do not
reach any of them. The switch stands as the last debugger that was enabled or disabled left it. -/

namespace MultiClock

structure Debugger where
  /-- Without duplicates, in the order in which they were added. -/
  logPoints : List ActivityFilter
  log : Recent Activity 1024
  enabled : Bool

namespace Debugger

def new : Debugger := ⟨[], .empty, false⟩

instance : Inhabited Debugger := ⟨new⟩

def has (filter : ActivityFilter) (debugger : Debugger) : Bool := debugger.logPoints.contains filter

def add (filter : ActivityFilter) (debugger : Debugger) : Debugger :=
  if debugger.has filter then debugger
  else { debugger with logPoints := debugger.logPoints ++ [filter] }

def remove (filter : ActivityFilter) (debugger : Debugger) : Debugger :=
  { debugger with logPoints := debugger.logPoints.filter (· != filter) }

def toggle (filter : ActivityFilter) (debugger : Debugger) : Debugger :=
  if debugger.has filter then debugger.remove filter else debugger.add filter

/-- Logs an activity that a log point accepts. -/
def collect (activity : Activity) (debugger : Debugger) : Debugger :=
  let ⟨logPoints, log, enabled⟩ := debugger
  if enabled && logPoints.any (·.accepts activity) then ⟨logPoints, log.push activity, enabled⟩
  else ⟨logPoints, log, enabled⟩

/-- The logged activities, oldest first. The log is empty afterwards. -/
def takeLog (debugger : Debugger) : Array Activity × Debugger :=
  (debugger.log.oldestFirst, { debugger with log := .empty })

end Debugger

/-- All debuggers of a host and the switch that they share. -/
structure Debuggers where
  eventsOn : Bool
  members : Array Debugger

namespace Debuggers

def new (count : Nat) : Debuggers := ⟨false, Array.replicate count Debugger.new⟩

def modify (index : Nat) (change : Debugger → Debugger) (debuggers : Debuggers) : Debuggers :=
  let ⟨eventsOn, members⟩ := debuggers
  ⟨eventsOn, members.modify index change⟩

def get (index : Nat) (debuggers : Debuggers) : Debugger :=
  debuggers.members.getD index Debugger.new

/-- Enables or disables one debugger, and turns the switch likewise. -/
def enable (index : Nat) (on : Bool) (debuggers : Debuggers) : Debuggers :=
  { debuggers.modify index fun debugger => { debugger with enabled := on } with eventsOn := on }

/-- Passes an activity to one debugger, as long as the switch is on. -/
def emit (index : Nat) (activity : Activity) (debuggers : Debuggers) : Debuggers :=
  if debuggers.eventsOn then debuggers.modify index (Debugger.collect activity) else debuggers

def takeLog (index : Nat) (debuggers : Debuggers) : Array Activity × Debuggers :=
  ((debuggers.get index).takeLog.1, debuggers.modify index fun debugger => debugger.takeLog.2)

end Debuggers
end MultiClock
