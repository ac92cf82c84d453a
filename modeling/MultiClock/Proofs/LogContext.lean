import MultiClock.Host.Log
import MultiClock.Proofs.RecentItems

/-! What a log prints. The accepted records fall into passages, each of which ends with the first record above trace level. Of its trace
records the last ones are printed in front of it. What comes after the last passage waits. -/

namespace MultiClock.Log

/-- A record above trace level with the trace records since the one before. -/
structure Passage where
  traces : List Record
  outcome : Record

namespace Passage

def records (passage : Passage) : List Record := passage.traces ++ [passage.outcome]

/-- The records that are printed, which are all but the oldest trace records. -/
def shown (passage : Passage) : List Record := passage.traces.rtake (min 20 passage.traces.length) ++ [passage.outcome]

/-- The printed lines, with a mark in front if no place for another trace record was left. -/
def lines (colors : Bool) (passage : Passage) : List String :=
  (if 20 ≤ passage.traces.length then [Style.dimmed.apply colors "..."] else []) ++ passage.shown.map (format colors)

end Passage

/-- The records fall into these passages and the trace records that wait. -/
structure Divides (records : List Record) (passages : List Passage) (waiting : List Record) : Prop where
  joined : records = passages.flatMap Passage.records ++ waiting
  traces : ∀ passage ∈ passages, ∀ record ∈ passage.traces, record.level = .trace
  outcomes : ∀ passage ∈ passages, passage.outcome.level ≠ .trace
  waits : ∀ record ∈ waiting, record.level = .trace

variable {records waiting : List Record} {passages : List Passage} {record : Record} {colors : Bool} {log : Log}

theorem Divides.trace (divides : Divides records passages waiting) (trace : record.level = .trace) :
    Divides (records ++ [record]) passages (waiting ++ [record]) where
  joined := by rw [divides.joined, List.append_assoc]
  traces := divides.traces
  outcomes := divides.outcomes
  waits := List.forall_mem_append.mpr ⟨divides.waits, List.forall_mem_singleton.mpr trace⟩

theorem Divides.outcome (divides : Divides records passages waiting) (above : record.level ≠ .trace) :
    Divides (records ++ [record]) (passages ++ [⟨waiting, record⟩]) [] where
  joined := by simp [divides.joined, Passage.records]
  traces := List.forall_mem_append.mpr ⟨divides.traces, List.forall_mem_singleton.mpr divides.waits⟩
  outcomes := List.forall_mem_append.mpr ⟨divides.outcomes, List.forall_mem_singleton.mpr above⟩
  waits := List.forall_mem_nil _

theorem Passage.shown_sublist (passage : Passage) : passage.shown.Sublist passage.records :=
  List.Sublist.append_right (List.drop_sublist _ _) [passage.outcome]

/-- No record is shown twice or out of its order. -/
theorem Divides.shown_sublist (divides : Divides records passages waiting) : (passages.flatMap Passage.shown).Sublist records := by
  have shorter (passages : List Passage) : (passages.flatMap Passage.shown).Sublist (passages.flatMap Passage.records) := by
    induction passages with
    | nil => exact List.Sublist.refl _
    | cons passage passages ih => exact passage.shown_sublist.append ih
  rw [divides.joined]
  exact (shorter passages).trans (List.sublist_append_left _ _)

theorem filter_traces {traces : List Record} (all : ∀ record ∈ traces, record.level = .trace) :
    traces.filter (·.level != .trace) = [] := by
  apply List.filter_eq_nil_iff.mpr
  intro record within
  simp [all record within]

/-- Every record above trace level is shown. -/
theorem Divides.shown_above (divides : Divides records passages waiting) :
    (passages.flatMap Passage.shown).filter (·.level != .trace) = records.filter (·.level != .trace) := by
  have same (passages : List Passage) (traces : ∀ passage ∈ passages, ∀ record ∈ passage.traces, record.level = .trace) :
      (passages.flatMap Passage.shown).filter (·.level != .trace) = (passages.flatMap Passage.records).filter (·.level != .trace) := by
    induction passages with
    | nil => rfl
    | cons passage passages ih =>
      have first := traces passage List.mem_cons_self
      have last (record : Record) (within : record ∈ passage.traces.rtake (min 20 passage.traces.length)) : record.level = .trace :=
        first record (List.mem_of_mem_drop within)
      have rest := ih fun other within => traces other (List.mem_cons_of_mem passage within)
      simp only [List.flatMap_cons, List.filter_append, rest, Passage.shown, Passage.records, filter_traces first, filter_traces last]
  rw [divides.joined, List.filter_append, filter_traces divides.waits, List.append_nil, same passages divides.traces]

/-- The log printed these passages, and its context is what is left of the records that wait. -/
structure Printed (colors : Bool) (passages : List Passage) (waiting : List Record) (log : Log) : Prop where
  colored : log.colors = colors
  printed : log.printed.toList = passages.flatMap (Passage.lines colors)
  context : log.context.Recalls (waiting.map (format colors))

theorem printed_new (filter : Filter) (limit : Option Level) (colors : Bool) : Printed colors [] [] (new filter limit colors) :=
  ⟨rfl, rfl, Recent.recalls_empty⟩

theorem Printed.trace (printed : Printed colors passages waiting log) (trace : record.level = .trace) :
    Printed colors passages (waiting ++ [record]) (log.enter record) := by
  have kept : log.enter record = { log with context := log.context.push (format log.colors record) } := if_pos trace
  rw [kept, printed.colored]
  refine ⟨rfl, printed.printed, ?_⟩
  rw [List.map_append]
  exact printed.context.push _

theorem Passage.lines_eq (colors : Bool) (waiting : List Record) (record : Record) : lines colors ⟨waiting, record⟩ =
    (if 20 ≤ waiting.length then [Style.dimmed.apply colors "..."] else []) ++ (waiting.map (format colors)).rtake 20 ++
      [format colors record] := by
  have taken : waiting.length - min 20 waiting.length = waiting.length - 20 := by omega
  simp only [lines, shown, List.rtake, taken, List.map_append, List.map_drop, List.length_map, List.map_cons, List.map_nil,
    List.append_assoc]

theorem Printed.outcome (printed : Printed colors passages waiting log) (above : record.level ≠ .trace) :
    Printed colors (passages ++ [⟨waiting, record⟩]) [] (log.enter record) := by
  have full : log.context.isFull ↔ 20 ≤ waiting.length := by simpa using printed.context.isFull_iff
  have marked : (if log.context.isFull then log.printed.push (Style.dimmed.apply colors "...") else log.printed).toList =
      log.printed.toList ++ if 20 ≤ waiting.length then [Style.dimmed.apply colors "..."] else [] := by
    simp only [full]
    split <;> simp
  have emptied : log.enter record = { log with
      context := .empty
      printed := ((if log.context.isFull then log.printed.push (Style.dimmed.apply log.colors "...") else log.printed) ++
        log.context.oldestFirst).push (format log.colors record) } := if_neg above
  rw [emptied, printed.colored]
  refine ⟨rfl, ?_, Recent.recalls_empty⟩
  rw [List.flatMap_append, List.flatMap_singleton, Passage.lines_eq, ← printed.printed, Array.toList_push, Array.toList_append, marked,
    printed.context]
  simp only [List.append_assoc]

/-- These of the records are accepted. -/
def accepted (accepts : Level → String → Bool) (records : List Record) : List Record :=
  records.filter fun record => accepts record.level record.target

/-- The log after the records were offered to it one after the other. -/
def offerAll (accepts : Level → String → Bool) (records : List Record) (log : Log) : Log :=
  records.foldl (fun log record => log.offer accepts record) log

variable {accepts : Level → String → Bool}

theorem accepted_concat (records : List Record) (record : Record) : accepted accepts (records ++ [record]) =
    if accepts record.level record.target then accepted accepts records ++ [record] else accepted accepts records := by
  rw [accepted, List.filter_append, List.filter_singleton]
  split <;> simp [accepted, *]

theorem offerAll_concat (records : List Record) (record : Record) (log : Log) :
    log.offerAll accepts (records ++ [record]) = (log.offerAll accepts records).offer accepts record := by
  rw [offerAll, List.foldl_append]
  rfl

theorem printed_all (accepts : Level → String → Bool) (records : List Record) (filter : Filter) (limit : Option Level) (colors : Bool) :
    ∃ passages waiting, Divides (accepted accepts records) passages waiting ∧
      Printed colors passages waiting ((new filter limit colors).offerAll accepts records) := by
  induction records using List.reverseRecOn with
  | nil => exact ⟨[], [], ⟨rfl, List.forall_mem_nil _, List.forall_mem_nil _, List.forall_mem_nil _⟩, printed_new filter limit colors⟩
  | append_singleton records record ih =>
    obtain ⟨passages, waiting, divides, printed⟩ := ih
    rw [accepted_concat, offerAll_concat, offer]
    split
    next =>
      by_cases trace : record.level = .trace
      · exact ⟨passages, waiting ++ [record], divides.trace trace, printed.trace trace⟩
      · exact ⟨passages ++ [⟨waiting, record⟩], [], divides.outcome trace, printed.outcome trace⟩
    next => exact ⟨passages, waiting, divides, printed⟩

/-- Records that are not accepted leave no trace. -/
theorem offerAll_accepted (records : List Record) (log : Log) :
    log.offerAll accepts (accepted accepts records) = log.offerAll accepts records := by
  rw [offerAll, accepted, List.foldl_filter]
  apply congrArg (List.foldl · log records)
  funext log record
  rw [offer]
  split <;> rfl

theorem filter_offer (accepts : Level → String → Bool) (record : Record) (log : Log) : (log.offer accepts record).filter = log.filter := by
  rw [offer]
  split
  next =>
    simp only [enter]
    split <;> rfl
  next => rfl

theorem writeAll_eq (records : List Record) (log : Log) :
    records.foldl (fun log record => log.write record) log = log.offerAll log.filter.accepts records := by
  induction records generalizing log with
  | nil => rfl
  | cons record records ih =>
    rw [List.foldl_cons, ih, write, filter_offer]
    rfl

/-- Whatever is accepted, each passage prints its last trace records, 20 at most, and then its outcome, with a mark in front of 20.
So each accepted record above trace level is printed once, no other one more often or out of its order, and records that are not
accepted change nothing. A log with a filter accepts what the filter does. -/
theorem context_printed (accepts : Level → String → Bool) (records : List Record) (filter : Filter) (limit : Option Level) (colors : Bool) :
    (∃ passages waiting, Divides (accepted accepts records) passages waiting ∧
      ((new filter limit colors).offerAll accepts records).printed.toList = passages.flatMap (Passage.lines colors) ∧
      (passages.flatMap Passage.shown).filter (·.level != .trace) = (accepted accepts records).filter (·.level != .trace) ∧
      (passages.flatMap Passage.shown).Sublist (accepted accepts records)) ∧
    (∀ log : Log, log.offerAll accepts (accepted accepts records) = log.offerAll accepts records) ∧
    records.foldl (fun log record => log.write record) (new filter limit colors) =
      (new filter limit colors).offerAll filter.accepts records := by
  refine ⟨?_, offerAll_accepted records, writeAll_eq records _⟩
  obtain ⟨passages, waiting, divides, printed⟩ := printed_all accepts records filter limit colors
  exact ⟨passages, waiting, divides, printed.printed, divides.shown_above, divides.shown_sublist⟩

end MultiClock.Log
