/-! Names are compared without regard to the case of the letters A to Z. Every name is made of
those letters, so no other letter can make two texts equal that differ. -/

namespace MultiClock.Text

def lowered (text : List Char) : List Char := text.map Char.toLower

def equalIgnoringCase (first second : String) : Bool :=
  lowered first.toList == lowered second.toList

/-- The parts before and after the first separator. -/
def splitOnce (separator : Char) : List Char → Option (List Char × List Char)
  | [] => none
  | c :: rest =>
    if c = separator then some ([], rest)
    else (splitOnce separator rest).map fun (before, after) => (c :: before, after)

end MultiClock.Text
