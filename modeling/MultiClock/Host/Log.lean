import MultiClock.Recent
import MultiClock.Text.Blank
import MultiClock.Text.Letters

/-! A log that prints records with their context. There is a trace record for every transfer of
control, far too many to print them. The newest of them are kept instead, and printed in front of
the next record of a higher level. -/

namespace MultiClock

open Text

namespace Log

/-- From the most to the least urgent. -/
inductive Level
  | error
  | warn
  | info
  | debug
  | trace
deriving DecidableEq, Repr

namespace Level

def rank : Level → Nat
  | error => 1
  | warn => 2
  | info => 3
  | debug => 4
  | trace => 5

def name : Level → String
  | error => "error"
  | warn => "warn"
  | info => "info"
  | debug => "debug"
  | trace => "trace"

def all : List Level := [error, warn, info, debug, trace]

/-- The least urgent level that passes a limit, or none at all for the limit `off`. -/
def parseLimit? (text : String) : Option (Option Level) :=
  if equalIgnoringCase text "off" then some none
  else (all.find? fun level => equalIgnoringCase level.name text).map some

/-- At least as urgent as the limit. -/
def within (limit : Option Level) (level : Level) : Bool := limit.any (level.rank ≤ ·.rank)

end Level

structure Record where
  level : Level
  /-- Where the record comes from: a path of names, separated by double colons. -/
  target : String
  message : String
deriving Repr

/-- Limits the records whose targets start with a text. -/
structure Directive where
  target : String
  limit : Option Level
deriving Repr

/-- For each record the directive with the longest matching text counts. -/
structure Filter where
  directives : List Directive
deriving Repr

namespace Filter

def longestMatch (target : String) (directives : List Directive) : Option Directive :=
  directives.foldl (fun best directive =>
    if directive.target.toList.isPrefixOf target.toList &&
        best.all (·.target.length ≤ directive.target.length) then some directive
    else best) none

def accepts (filter : Filter) (level : Level) (target : String) : Bool :=
  (longestMatch target filter.directives).any fun directive => level.within directive.limit

/-- The least urgent level that any directive lets pass. -/
def limit (filter : Filter) : Option Level :=
  filter.directives.foldl (fun limit directive =>
    if (directive.limit.map Level.rank).getD 0 ≤ (limit.map Level.rank).getD 0 then limit
    else directive.limit) none

/-- One directive: a limit for all targets, a target alone, or a target with its limit. -/
def parseDirective? (text : List Char) : Option Directive :=
  match splitOnce '=' text with
  | none =>
    match Level.parseLimit? (String.ofList text) with
    | some limit => some ⟨"", limit⟩
    | none => some ⟨String.ofList text, some .trace⟩
  | some (target, limit) =>
    if limit.isEmpty then some ⟨String.ofList target, some .trace⟩
    else (Level.parseLimit? (String.ofList limit)).map fun limit => ⟨String.ofList target, limit⟩

/-- Directives separated by commas. Those that make no sense are left out. Without any, only errors
are accepted. -/
def parse (text : String) : Filter :=
  let pieces := (text.toList.splitOn ',').map trimmed
  let directives := (pieces.filter (!·.isEmpty)).filterMap parseDirective?
  ⟨if directives.isEmpty then [⟨"", some .error⟩] else directives⟩

end Filter

/-- A color or weight of text on a terminal, as the numbers that switch it on. -/
structure Style where
  codes : String

namespace Style

def bold (color : String) : Style := ⟨"1;" ++ color⟩

def plain (color : String) : Style := ⟨color⟩

def dimmed : Style := ⟨"2"⟩

def red : String := "31"

def yellow : String := "33"

def blue : String := "34"

def resetSequence : List Char := ['\x1b', '[', '0', 'm']

/-- The text with a style switched on again after everything that resets it. -/
def renewed (start : List Char) : List Char → List Char
  | '\x1b' :: '[' :: '0' :: 'm' :: rest => resetSequence ++ start ++ renewed start rest
  | c :: rest => c :: renewed start rest
  | [] => []

def apply (colors : Bool) (style : Style) (text : String) : String :=
  if !colors then text
  else
    let start := '\x1b' :: '[' :: style.codes.toList ++ ['m']
    String.ofList (start ++ renewed start text.toList ++ resetSequence)

end Style

/-- The last name of a target's path, which the last two colons in a row precede. -/
def lastName (target : String) : String :=
  let rec go (name : List Char) : List Char → List Char
    | ':' :: ':' :: _ => name
    | c :: rest => go (c :: name) rest
    | [] => name
  String.ofList (go [] target.toList.reverse)

/-- A record as a printed text. -/
def format (colors : Bool) (record : Record) : String :=
  let target := Style.dimmed.apply colors (lastName record.target)
  let head (style : Style) (mark : String) := style.apply colors mark ++ " " ++ target ++ " "
  match record.level with
  | .error =>
    head (.bold Style.red) "E" ++ (Style.plain Style.red).apply colors record.message
  | .warn =>
    head (.bold Style.yellow) "W" ++ (Style.plain Style.yellow).apply colors record.message
  | .info => head (.bold Style.blue) "I" ++ record.message
  | .debug => head (.plain Style.blue) "D" ++ record.message
  | .trace => target ++ " " ++ Style.dimmed.apply colors record.message

end Log

structure Log where
  filter : Log.Filter
  /-- Records below this level are not even offered to the log. -/
  limit : Option Log.Level
  colors : Bool
  /-- The newest trace records since the last printed one. -/
  context : Recent String 20
  /-- What was printed, in order. -/
  printed : Array String

namespace Log

def new (filter : Filter) (limit : Option Level) (colors : Bool) : Log :=
  ⟨filter, limit, colors, .empty, #[]⟩

/-- A log that nothing is offered to. -/
def silent : Log := new ⟨[]⟩ none false

instance : Inhabited Log := ⟨silent⟩

/-- Keeps a trace record as context. Any other record is printed after the context, in front of
which a mark shows that older context may be missing. -/
def enter (record : Record) (log : Log) : Log :=
  let ⟨filter, limit, colors, context, printed⟩ := log
  let text := format colors record
  if record.level = .trace then ⟨filter, limit, colors, context.push text, printed⟩
  else
    let printed :=
      if context.isFull then printed.push (Style.dimmed.apply colors "...") else printed
    ⟨filter, limit, colors, .empty, (printed ++ context.oldestFirst).push text⟩

/-- Takes notice of a record only if its level and target are accepted. -/
def offer (accepts : Level → String → Bool) (record : Record) (log : Log) : Log :=
  if accepts record.level record.target then log.enter record else log

def write (record : Record) (log : Log) : Log := log.offer log.filter.accepts record

end Log
end MultiClock
