import Mathlib.Data.List.Basic
import RestQuery.Proofs.Filter.Combinator
import RestQuery.Proofs.Schema.Accepted

/-! The slots of a filter: the places in its combinators that hold no combinator themselves, and
those that lie too deep. Each gives one comparison or one rejection, and the condition and the
rejections of the filter have them all, from left to right. -/
namespace RestQuery.Condition

mutual

def comparisons : Condition → List Condition
  | comparison column operator operand => [comparison column operator operand]
  | logical _ children => allComparisons children

def allComparisons : List Condition → List Condition
  | [] => []
  | child :: children => comparisons child ++ allComparisons children

end

theorem allComparisons_eq (children : List Condition) :
    allComparisons children = children.flatMap comparisons := by
  induction children with
  | nil => rfl
  | cons child children ih => simp [allComparisons, ih]

def comparisons? (condition : Option Condition) : List Condition :=
  condition.toList.flatMap comparisons

theorem comparisons?_combine? (connective : Connective) (children : List Condition) :
    comparisons? (combine? connective children) = children.flatMap comparisons := by
  cases children with
  | nil => rfl
  | cons child others => simp [comparisons?, combine?, comparisons, allComparisons_eq]

/-- A text with the levels that are left for it, of which a combinator takes one. -/
structure Slot where
  levels : Nat
  text : Text

/-- The slots of a text, from left to right: those of its items if it is a combinator and a level
is left, and otherwise itself. -/
def slots : Nat → Text → List Slot
  | 0, text => [⟨0, text⟩]
  | levels + 1, text =>
    match combinator? text with
    | some (_, parts) => parts.flatMap (slots levels)
    | none => [⟨levels + 1, text⟩]

def Slot.compile (schema : Schema) (slot : Slot) : Report (Option Condition) :=
  compileWithin schema slot.levels slot.text

/-- There is one comparison, or one rejection. -/
inductive IsSettled : Report (Option Condition) → Prop
  | compared (column : Column) (operator : Operator) (operand : Operand) :
    IsSettled ⟨some (comparison column operator operand), []⟩
  | rejected (rejection : Rejection) : IsSettled ⟨none, [rejection]⟩

theorem isSettled_compileAlone (schema : Schema) (text : Text) :
    IsSettled (.ofExcept (compileAlone schema text)) := by
  cases made : compileAlone schema text with
  | error rejection => exact .rejected rejection
  | ok condition =>
    obtain ⟨column, operator, operand, rfl⟩ := exists_comparison_of_compileAlone made
    exact .compared column operator operand

theorem IsSettled.comparisons?_eq (settled : IsSettled report) :
    comparisons? report.result = report.result.toList := by
  cases settled <;> rfl

theorem IsSettled.length_eq (settled : IsSettled report) :
    report.result.toList.length + report.rejections.length = 1 := by
  cases settled <;> rfl

/-- A slot lies too deep, or it is no combinator. -/
theorem isSettled_of_mem_slots (levels : Nat) (text : Text) :
    ∀ slot ∈ slots levels text, IsSettled (slot.compile schema) := by
  induction levels, text using inductWithin with
  | deep text =>
    intro slot member
    obtain rfl := List.mem_singleton.mp member
    exact .rejected _
  | alone levels text found =>
    intro slot member
    simp only [slots, found] at member
    obtain rfl := List.mem_singleton.mp member
    rw [Slot.compile, compileWithin_succ, found]
    exact isSettled_compileAlone schema text
  | combinator levels text connective parts found ih =>
    intro slot member
    simp only [slots, found] at member
    obtain ⟨part, present, member⟩ := List.mem_flatMap.mp member
    exact ih part present slot member

theorem slots_ne_nil (levels : Nat) (text : Text) : slots levels text ≠ [] := by
  induction levels, text using inductWithin with
  | deep text => simp [slots]
  | alone levels text found => simp [slots, found]
  | combinator levels text connective parts found ih =>
    obtain ⟨_, _, _, _, filled⟩ := combinator?_eq_some_iff.mp found
    obtain ⟨first, others, rfl⟩ := List.exists_cons_of_ne_nil filled
    simp [slots, found, ih first (by simp)]

/-- What the items of a combinator give stands side by side in what it gives. -/
theorem compileWithin_slots (schema : Schema) (levels : Nat) (text : Text) :
    comparisons? (compileWithin schema levels text).result =
        (slots levels text).flatMap (fun slot => comparisons? (slot.compile schema).result) ∧
      (compileWithin schema levels text).rejections =
        (slots levels text).flatMap (fun slot => (slot.compile schema).rejections) := by
  induction levels, text using inductWithin with
  | deep text => simp [slots, Slot.compile]
  | alone levels text found => simp [slots, found, Slot.compile]
  | combinator levels text connective parts found ih =>
    simp only [compileWithin_succ, slots, found, Report.result_map, Report.rejections_map,
      comparisons?_combine?, Report.result_present, Report.rejections_present,
      List.filterMap_eq_flatMap_toList, List.flatMap_map, List.flatMap_assoc]
    exact ⟨List.flatMap_congr fun part member => (ih part member).1,
      List.flatMap_congr fun part member => (ih part member).2⟩

/-- One of two for each slot. -/
theorem length_settled {places : List Slot}
    (settled : ∀ slot ∈ places, IsSettled (slot.compile schema)) :
    (places.filterMap fun slot => (slot.compile schema).result).length +
      (places.flatMap fun slot => (slot.compile schema).rejections).length = places.length := by
  induction places with
  | nil => rfl
  | cons first others ih =>
    obtain ⟨one, settled⟩ := List.forall_mem_cons.mp settled
    have later := ih settled
    have one := one.length_eq
    simp only [List.filterMap_eq_flatMap_toList, List.flatMap_cons, List.length_append,
      List.length_cons] at *
    omega

/-- Nothing of a filter is lost and nothing is reported twice: each slot gives one comparison or
one rejection, and all of them stand in the condition and among the rejections in the order of
the slots. So a filter that comes to nothing reports something, and one that reports nothing
keeps every slot. -/
theorem compile_settles_slots (schema : Schema) (text : Text) :
    let report := compile schema text
    let places := slots (greatestDepth + 1) text
    (∀ slot ∈ places, IsSettled (slot.compile schema)) ∧
    comparisons? report.result = places.filterMap (fun slot => (slot.compile schema).result) ∧
    report.rejections = places.flatMap (fun slot => (slot.compile schema).rejections) ∧
    (comparisons? report.result).length + report.rejections.length = places.length ∧
    (report.result = none → report.rejections ≠ []) ∧
    (report.rejections = [] → (comparisons? report.result).length = places.length) := by
  intro report places
  have settled : ∀ slot ∈ places, IsSettled (slot.compile schema) := isSettled_of_mem_slots _ _
  obtain ⟨compared, rejected⟩ := compileWithin_slots schema (greatestDepth + 1) text
  have compared : comparisons? report.result =
      places.filterMap (fun slot => (slot.compile schema).result) := by
    rw [List.filterMap_eq_flatMap_toList]
    exact compared.trans (List.flatMap_congr fun slot member =>
      (settled slot member).comparisons?_eq)
  have count : (comparisons? report.result).length + report.rejections.length = places.length := by
    rw [compared, show report.rejections = _ from rejected]
    exact length_settled settled
  have filled : 0 < places.length := List.length_pos_iff.mpr (slots_ne_nil _ _)
  refine ⟨settled, compared, rejected, count, fun absent silent => ?_, fun silent => ?_⟩
  · simp only [absent, silent, comparisons?, Option.toList_none, List.flatMap_nil,
      List.length_nil] at count
    omega
  · simpa [silent] using count

theorem compile_settles_slots_emptied :
    let text := "or(x.eq(2), and( ,(y)),name.eq)".toList
    let kept := "or(id.eq(1), and( ,name.is(null)))".toList
    (slots (greatestDepth + 1) text).length = 3 ∧ (compile .subjects text).result = none ∧
      (compile .subjects text).rejections.length = 3 ∧ (compile .subjects text).rejections ≠ [] ∧
      (compile .subjects kept).rejections = [] ∧
      (comparisons? (compile .subjects kept).result).length = 2 := by
  intro text kept
  obtain ⟨_, _, _, count, reported, _⟩ := compile_settles_slots .subjects text
  have places : (slots (greatestDepth + 1) text).length = 3 := by decide +kernel
  have absent : (compile .subjects text).result = none :=
    Option.isNone_iff_eq_none.mp (by decide +kernel)
  rw [absent, places] at count
  have silent : (compile .subjects kept).rejections = [] := by decide +kernel
  have whole := (compile_settles_slots .subjects kept).2.2.2.2.2 silent
  have two : (slots (greatestDepth + 1) kept).length = 2 := by decide +kernel
  exact ⟨places, absent, by simpa [comparisons?] using count, reported absent, silent,
    whole.trans two⟩

end RestQuery.Condition
