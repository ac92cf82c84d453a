/-! The most recent items, up to a capacity. Items that fell out may be kept for a while and are
dropped in bulk, so adding one takes constant time on average; no operation ever shows them. -/

namespace MultiClock

/-- The last `capacity` of the kept items count, newest last. -/
structure Recent (α : Type) (capacity : Nat) where
  kept : Array α

namespace Recent

def empty : Recent α capacity := ⟨#[]⟩

instance : Inhabited (Recent α capacity) := ⟨empty⟩

/-- The items that count, oldest first. -/
def oldestFirst (recent : Recent α capacity) : Array α :=
  recent.kept.extract (recent.kept.size - capacity) recent.kept.size

def newestFirst (recent : Recent α capacity) : List α := recent.oldestFirst.toList.reverse

def length (recent : Recent α capacity) : Nat := min recent.kept.size capacity

def isEmpty (recent : Recent α capacity) : Bool := recent.length == 0

def isFull (recent : Recent α capacity) : Bool := recent.length == capacity

def push (recent : Recent α capacity) (item : α) : Recent α capacity :=
  if recent.kept.size < 2 * capacity then ⟨recent.kept.push item⟩
  else ⟨recent.oldestFirst.push item⟩

/-- Removes the newest item. -/
def pop (recent : Recent α capacity) : Option α × Recent α capacity :=
  let items := recent.oldestFirst
  (items.back?, ⟨items.pop⟩)

end Recent
end MultiClock
