import Mathlib.Data.List.Basic
import RestQuery.Proofs.Descriptor.Independent
import RestQuery.Proofs.Filter.Context
import RestQuery.Proofs.Filter.Pruned
import RestQuery.Proofs.Projection.Named
import RestQuery.Proofs.Token.Balanced

/-! Lists of fragments and comma lists. Fragments that are closed may be given one by one or as
one text with commas between them: the projection, the order and the counts that they compile to
are the same, and so are the rejections. -/
namespace RestQuery

namespace Report

variable (compile : β → Report (Option γ)) (lists : α → List β) (xs : List α)

/-- Lists that are compiled one by one give the same rejections as one list. -/
theorem rejections_all_lists :
    (all (xs.map fun x => present ((lists x).map compile))).rejections =
      (present ((xs.flatMap lists).map compile)).rejections := by
  simp [all, rejections_present, List.flatMap_map, List.flatMap_assoc]

theorem all_lists : (all (xs.map fun x => present ((lists x).map compile))).map List.flatten =
    present ((xs.flatMap lists).map compile) := by
  have results : (xs.map fun x => (present ((lists x).map compile)).result).flatten =
      (present ((xs.flatMap lists).map compile)).result := by
    simp only [result_present, List.map_flatMap, List.filterMap_flatMap]
    rfl
  have rejections := rejections_all_lists compile lists xs
  simp only [map, rejections]
  simp only [all, List.map_map, Function.comp_def, results]

end Report

def Param.listed (param : Param) : List Text := param.fragments.flatMap Token.items

theorem Param.mem_listed {param : Param} : item ∈ param.listed ↔ item ∈ param.items := by
  rw [listed, List.mem_flatMap]
  simp only [← Token.isListed_iff]
  rfl

/-- Fragments that are closed hold the items of the comma list that they make up. -/
theorem Param.listed_joined {texts : List Text}
    (closed : ∀ text ∈ texts.dropLast, Token.IsClosed text) :
    (single ([','].intercalate texts)).listed = (list texts).listed := by
  rw [listed, fragments, List.flatMap_singleton, Token.items_joined closed]
  rfl

namespace Descriptor

theorem compileOrder_eq (schema : Schema) (param : Param) : compileOrder schema param =
    .present (param.listed.map fun item => .ofExcept (OrderTerm.ofItem schema item)) :=
  Report.all_lists _ Token.items param.fragments

theorem compileCounts_eq (schema : Schema) (param : Param) : compileCounts schema param =
    .present (param.listed.map fun label => .ofExcept (Count.ofLabel schema label)) :=
  Report.all_lists _ Token.items param.fragments

theorem rejections_compileProjection (schema : Schema) (param : Param) :
    (compileProjection schema param).rejections = (Report.present (param.listed.map
      (Projection.ofItem (.entity schema) Projection.compileRelation))).rejections := by
  rw [Param.listed, ← Report.rejections_all_lists]
  simp only [compileProjection, Projection.compile, Projection.ofItems, Report.rejections_map,
    Report.all, List.flatMap_map]

theorem compileOrder_congr (schema : Schema) (same : one.listed = two.listed) :
    compileOrder schema one = compileOrder schema two := by
  rw [compileOrder_eq, compileOrder_eq, same]

theorem compileCounts_congr (schema : Schema) (same : one.listed = two.listed) :
    compileCounts schema one = compileCounts schema two := by
  rw [compileCounts_eq, compileCounts_eq, same]

/-- What is named decides the projection, and the order of the items that of the rejections. -/
theorem compileProjection_congr (schema : Schema) (same : one.listed = two.listed) :
    compileProjection schema one = compileProjection schema two := by
  have items : one.items = two.items := by
    ext item
    rw [← Param.mem_listed, ← Param.mem_listed, same]
  have result : (compileProjection schema one).result = (compileProjection schema two).result := by
    rw [result_compileProjection, result_compileProjection, Projection.ofParam_congr schema items]
  have rejections : (compileProjection schema one).rejections =
      (compileProjection schema two).rejections := by
    rw [rejections_compileProjection, rejections_compileProjection, same]
  cases first : compileProjection schema one
  cases second : compileProjection schema two
  simp_all

/-- A list of fragments and the comma list of them say the same under `select`, `sort` and
`aggregate`, if parentheses are closed before every comma between them. -/
theorem compile_joined (schema : Schema) (params : Params) {texts : List Text}
    (listing : key ∈ ["select", "sort", "aggregate"])
    (closed : ∀ text ∈ texts.dropLast, Token.IsClosed text) :
    compile schema (NameMap.insert params key.toList (.list texts)) =
      compile schema (NameMap.insert params key.toList (.single ([','].intercalate texts))) := by
  have same : (Param.list texts).listed = (Param.single ([','].intercalate texts)).listed :=
    (Param.listed_joined closed).symm
  have unlisted {name : String} (apart : name ∉ ["select", "sort", "aggregate"]) : key ≠ name :=
    fun equal => apart (equal ▸ listing)
  exact compile_insert_congr schema params
    (fun _ => compileProjection_congr schema same)
    (fun equal => absurd equal (unlisted (by decide)))
    (fun _ => compileOrder_congr schema same)
    (fun equal => absurd equal (unlisted (by decide)))
    (fun equal => absurd equal (unlisted (by decide)))
    (fun _ => compileCounts_congr schema same)

theorem compile_joined_subjects :
    let texts := ["id)),name".toList, " department(title),x".toList, "department(id".toList]
    (∀ text ∈ texts.dropLast, Token.IsClosed text) ∧
    compile .subjects (NameMap.insert .empty "select".toList (.list texts)) =
      compile .subjects (NameMap.insert .empty "select".toList
        (.single "id)),name, department(title),x,department(id".toList)) := by
  intro texts
  have closed : ∀ text ∈ texts.dropLast, Token.IsClosed text := by decide
  exact ⟨closed, compile_joined .subjects .empty (by decide) closed⟩

end Descriptor

/-! Lists of filters and conjunctions of them. The filters of a list hold together, so writing
them as the arguments of one `and(..)` gives the same condition and the same rejections, if no
filter nests so deep that the combinator around it takes the last level from it. -/

namespace Condition

open Token

def conjunctionText (texts : List Text) : Text :=
  Connective.and.name ++ '(' :: ([','].intercalate texts ++ [')'])

/-- A filter that may stand below a combinator and loses nothing there: not blank, without a
comma of its own, and with too few parentheses to nest as deep as combinators may. -/
structure IsConjunct (text : Text) : Prop where
  fragment : IsFragment text
  filled : Text.isBlank text = false
  few : text.count '(' < greatestDepth

instance : DecidablePred IsConjunct := fun text =>
  decidable_of_iff (IsFragment text ∧ Text.isBlank text = false ∧ text.count '(' < greatestDepth)
    ⟨fun ⟨fragment, filled, few⟩ => ⟨fragment, filled, few⟩,
      fun ⟨fragment, filled, few⟩ => ⟨fragment, filled, few⟩⟩

/-- With one level less nothing of it lies too deep. -/
theorem IsConjunct.compileWithin_eq (conjunct : IsConjunct text) (schema : Schema) :
    compileWithin schema greatestDepth text = compile schema text := by
  have few := conjunct.few
  have below : nestsWithin 63 text = true := nestsWithin_of_count_le (Nat.le_of_lt_succ few)
  have alone : nestsWithin greatestDepth text = true := nestsWithin_of_count_le (Nat.le_of_lt few)
  exact (compileWithin_eq_compileFreely schema below).trans
    (compileWithin_eq_compileFreely schema alone).symm

theorem IsConjunct.items_eq (conjunct : IsConjunct text) : items text = [text.trim] := by
  rw [conjunct.fragment.isItem.items_eq]
  simp [Text.trim_eq_nil_iff, conjunct.filled]

theorem flatMap_items {texts : List Text} (each : ∀ text ∈ texts, IsConjunct text) :
    texts.flatMap items = texts.map Text.trim := by
  rw [List.map_eq_flatMap]
  exact List.flatMap_congr fun text member => (each text member).items_eq

def conjunctionLayer : Layer where
  connective := .and
  before := []
  after := []
  lead := []
  trail := []
  fragments := by simp
  blank_lead := rfl
  blank_trail := rfl

theorem around_conjunctionLayer (texts : List Text) :
    conjunctionLayer.around texts = conjunctionText texts := by
  simp [Layer.around, Layer.call, conjunctionLayer, conjunctionText, Call.toText_single]

/-- The explicit conjunction compiles each filter as it compiles alone. -/
theorem compile_conjunctionText (schema : Schema) {texts : List Text} (filled : texts ≠ [])
    (each : ∀ text ∈ texts, IsConjunct text) : compile schema (conjunctionText texts) =
      (Report.present (texts.map (compile schema))).map (combine? .and) := by
  have isItem : ∀ text ∈ texts, IsItem text := fun text member =>
    (each text member).fragment.isItem
  have listed := flatMap_items each
  have compiled : texts.map (compileWithin schema greatestDepth ∘ Text.trim) =
      texts.map (compile schema) := by
    apply List.map_congr_left
    intro text member
    rw [Function.comp_apply, compileWithin_trim]
    exact (each text member).compileWithin_eq schema
  rw [compile, ← around_conjunctionLayer,
    Layer.compileWithin_around isItem schema greatestDepth (by simpa [listed] using filled), listed,
    List.map_map, compiled]
  rfl

end Condition

namespace Descriptor

/-- One filter is compiled as it stands. -/
theorem compileCondition_single (schema : Schema) (text : Text) :
    compileCondition schema (.single text) = Condition.compile schema text := by
  cases made : Condition.compile schema text with
  | mk result rejections =>
    cases result <;>
      simp [compileCondition, Param.fragments, made, Report.present, Report.all, Report.map,
        conjunction?, Condition.combine?]

theorem conjunction?_of_two {conditions : List Condition} (two : 2 ≤ conditions.length) :
    conjunction? conditions = Condition.combine? .and conditions := by
  match conditions, two with
  | _ :: _ :: _, _ => rfl

/-- A list of filters and the explicit conjunction of them give the same condition and the same
rejections, if at least two of the filters resolve; so all that is compiled with them is the
same, too. -/
theorem compile_conjoined (schema : Schema) {texts : List Text}
    (each : ∀ text ∈ texts, Condition.IsConjunct text)
    (two : 2 ≤ texts.countP fun text => (Condition.compile schema text).result.isSome) :
    let conjunction := Param.single (Condition.conjunctionText texts)
    compileCondition schema (.list texts) = compileCondition schema conjunction ∧
    ∀ params : Params, compile schema (NameMap.insert params "filter".toList (.list texts)) =
      compile schema (NameMap.insert params "filter".toList conjunction) := by
  intro conjunction
  have filled : texts ≠ [] := by
    rintro rfl
    simp at two
  have resolved : 2 ≤ (Report.present (texts.map (Condition.compile schema))).result.length := by
    rw [Report.result_present_map, List.length_filterMap_eq_countP]
    exact two
  have same : compileCondition schema (.list texts) = compileCondition schema conjunction := by
    rw [compileCondition_single, Condition.compile_conjunctionText schema filled each]
    simp only [compileCondition, Param.fragments, Report.map, conjunction?_of_two resolved]
  refine ⟨same, fun params => ?_⟩
  apply compile_insert_congr schema params
  case condition => exact fun _ => same
  all_goals exact fun other => absurd other (by decide)

theorem compile_conjoined_subjects :
    let texts := [" or(id.eq(1), x.eq(2)) ".toList, "y.eq((a,b))".toList, "name.like(a)".toList]
    (∀ text ∈ texts, Condition.IsConjunct text) ∧
    2 ≤ texts.countP (fun text => (Condition.compile .subjects text).result.isSome) ∧
    compileCondition .subjects (.list texts) = compileCondition .subjects
      (.single "and( or(id.eq(1), x.eq(2)) ,y.eq((a,b)),name.like(a))".toList) := by
  intro texts
  have each : ∀ text ∈ texts, Condition.IsConjunct text := by decide +kernel
  have two : 2 ≤ texts.countP fun text => (Condition.compile .subjects text).result.isSome := by
    decide +kernel
  exact ⟨each, two, (compile_conjoined .subjects each two).1⟩

end Descriptor
end RestQuery
