import Mathlib.Data.List.DropRight
import MultiClock.Text.Blank
import MultiClock.Text.Letters

/-! Readers take a text apart by removing the blanks at its ends and by cutting it at a separator. What each of the two leaves is
told here by how the pieces make up the text again. -/

namespace MultiClock.Text

/-- The text is `core` with blanks around it, and `core` has none at its own ends. -/
def Trims (text core : List Char) : Prop :=
  ∃ before after, text = before ++ core ++ after ∧ (∀ c ∈ before, isBlank c) ∧ (∀ c ∈ after, isBlank c) ∧
    (∀ filled : core ≠ [], ¬ isBlank (core.head filled)) ∧ ∀ filled : core ≠ [], ¬ isBlank (core.getLast filled)

theorem trimmed_eq (text : List Char) : trimmed text = (text.dropWhile isBlank).rdropWhile isBlank := rfl

theorem trims_trimmed (text : List Char) : Trims text (trimmed text) := by
  rw [trimmed_eq]
  have rest_first (filled : text.dropWhile isBlank ≠ []) : ¬ isBlank ((text.dropWhile isBlank).head filled) := by
    simpa using List.head_dropWhile_not isBlank filled
  have whole : text.takeWhile isBlank ++ text.dropWhile isBlank = text := List.takeWhile_append_dropWhile
  generalize text.dropWhile isBlank = rest at rest_first whole
  refine ⟨text.takeWhile isBlank, rest.rtakeWhile isBlank, ?_, fun _ => List.mem_takeWhile_imp, fun _ => List.mem_rtakeWhile_imp,
    fun filled => ?_, List.rdropWhile_last_not isBlank rest⟩
  · rw [List.append_assoc, List.rdropWhile_append_rtakeWhile, whole]
  · rw [(List.rdropWhile_prefix isBlank rest).head filled]
    exact rest_first _

theorem Trims.trimmed_eq {text core : List Char} (trims : Trims text core) : trimmed text = core := by
  obtain ⟨before, after, rfl, before_blank, after_blank, first, last⟩ := trims
  rw [Text.trimmed_eq, List.append_assoc, List.dropWhile_append_of_pos before_blank]
  cases core with
  | nil =>
    have gone : after.dropWhile isBlank = [] := List.dropWhile_eq_nil_iff.mpr after_blank
    rw [List.nil_append, gone, List.rdropWhile_nil]
  | cons c core =>
    have kept : ((c :: core) ++ after).dropWhile isBlank = (c :: core) ++ after :=
      List.dropWhile_cons_of_neg (first (List.cons_ne_nil c core))
    rw [kept, List.rdropWhile, List.reverse_append, List.dropWhile_append_of_pos (by simpa using after_blank)]
    exact List.rdropWhile_eq_self_iff.mpr last

theorem trims_iff {text core : List Char} : Trims text core ↔ trimmed text = core :=
  ⟨Trims.trimmed_eq, fun same => same ▸ trims_trimmed text⟩

/-- A text that neither starts nor ends with a blank is kept as it is. -/
theorem trims_self {text : List Char} (first : ∀ filled : text ≠ [], ¬ isBlank (text.head filled))
    (last : ∀ filled : text ≠ [], ¬ isBlank (text.getLast filled)) : Trims text text :=
  ⟨[], [], by simp, by simp, by simp, first, last⟩

theorem trims_of_no_blank {text : List Char} (none_blank : ∀ c ∈ text, ¬ isBlank c) : Trims text text :=
  trims_self (fun filled => none_blank _ (List.head_mem filled)) fun filled => none_blank _ (List.getLast_mem filled)

/-- Only the first separator counts: it is the one with none before it. -/
theorem splitOnce_eq_some {separator : Char} {text before after : List Char} :
    splitOnce separator text = some (before, after) ↔ text = before ++ separator :: after ∧ separator ∉ before := by
  induction text generalizing before with
  | nil => simp [splitOnce]
  | cons c rest hyp =>
    -- A separator at the front leaves nothing before it. Any other character belongs to what comes before.
    by_cases found : c = separator
    · cases before <;> grind [splitOnce]
    · rw [splitOnce, if_neg found]
      cases before with
      | nil => simp [found]
      | cons b before =>
        have shorter := @hyp before
        cases parted : splitOnce separator rest with
        | none =>
          rw [parted] at shorter
          grind
        | some pieces =>
          rw [parted] at shorter
          simp only [Option.map_some, Option.some.injEq, Prod.mk.injEq, List.cons.injEq]
          grind

theorem splitOnce_append {separator : Char} {before : List Char} (absent : separator ∉ before) (after : List Char) :
    splitOnce separator (before ++ separator :: after) = some (before, after) :=
  splitOnce_eq_some.mpr ⟨rfl, absent⟩

theorem splitOnce_eq_none {separator : Char} {text : List Char} : splitOnce separator text = none ↔ separator ∉ text := by
  induction text with
  | nil => simp [splitOnce]
  | cons c rest hyp =>
    by_cases found : c = separator
    · simp [splitOnce, found]
    · simp [splitOnce, found, hyp, Ne.symm found]

@[simp] theorem lowered_append (first second : List Char) : lowered (first ++ second) = lowered first ++ lowered second :=
  List.map_append

end MultiClock.Text
