import RestQuery.Proofs.Filter.Combinator
import RestQuery.Proofs.Schema.Accepted
import RestQuery.Proofs.Token.Balanced

/-! Filters with a hole. Combinators around a hole compile to what their other items give and to
what the hole gives, side by side. So a fragment that comes to nothing is as good as none, and
only its own rejections tell which it was. -/
namespace RestQuery.Condition

open Token

/-- A combinator around a hole: the items before and after it, and blanks around the whole. -/
structure Layer where
  connective : Connective
  before : List Text
  after : List Text
  lead : Text
  trail : Text
  fragments : ∀ part ∈ before ++ after, IsFragment part
  blank_lead : Text.isBlank lead = true
  blank_trail : Text.isBlank trail = true

namespace Layer

def call (layer : Layer) (parts : List Text) : Call :=
  ⟨[layer.connective.name], [','].intercalate parts⟩

def around (layer : Layer) (parts : List Text) : Text :=
  layer.lead ++ ((layer.call parts).toText ++ layer.trail)

def fill (layer : Layer) (part : Text) : Text := layer.around (layer.before ++ part :: layer.after)

/-- The combinator without an item in the place of the hole. -/
def without (layer : Layer) : Text := layer.around (layer.before ++ layer.after)

section

variable {layer : Layer} {parts : List Text} (each : ∀ part ∈ parts, IsItem part)
include each

theorem isWritten_call : (layer.call parts).IsWritten where
  filled := by simp [call]
  identifiers := by
    simpa [call] using isIdentifier_connective layer.connective
  balanced := IsItem.balanced_intercalate each

theorem trim_around : Text.trim (layer.around parts) = (layer.call parts).toText := by
  rw [around, Text.trim_around layer.blank_lead layer.blank_trail]
  exact (isWritten_call each).trim_toText

theorem isItem_around : IsItem (layer.around parts) := by
  have lead : IsItem layer.lead := .bare (isBare_of_isBlank layer.blank_lead)
  have trail : IsItem layer.trail := .bare (isBare_of_isBlank layer.blank_trail)
  exact lead.append ((isWritten_call each).isItem_toText.append trail)

theorem isBlank_around : Text.isBlank (layer.around parts) = false := by
  refine Bool.eq_false_iff.mpr fun blank => ?_
  have empty := Text.trim_eq_nil_iff.mpr blank
  rw [trim_around each] at empty
  simp [Call.toText] at empty

theorem read?_around : Call.read? (layer.around parts).trim = some (layer.call parts) := by
  rw [trim_around each]
  exact (isWritten_call each).read?_toText

theorem compileWithin_around (schema : Schema) (levels : Nat) (filled : parts.flatMap items ≠ []) :
    compileWithin schema (levels + 1) (layer.around parts) =
      (Report.present ((parts.flatMap items).map (compileWithin schema levels))).map
        (combine? layer.connective) := by
  have found : combinator? (layer.around parts) = some (layer.connective, parts.flatMap items) := by
    refine combinator?_eq_some_iff.mpr ⟨(layer.call parts).args, (isWritten_call each).balanced,
      ?_, IsItem.items_joined each, filled⟩
    rw [trim_around each]
    exact Call.toText_single ..
  rw [compileWithin_succ, found]

/-- Without an item the combinator is malformed, and it is absent as it is if nothing of it
resolves. -/
theorem result_around (schema : Schema) (levels : Nat) :
    (compileWithin schema (levels + 1) (layer.around parts)).result =
      combine? layer.connective ((parts.flatMap items).filterMap fun item =>
        (compileWithin schema levels item).result) := by
  cases listed : parts.flatMap items with
  | nil =>
    have empty : items ([','].intercalate parts) = [] := (IsItem.items_joined each).trans listed
    simp only [compileWithin, read?_around each]
    simp only [call, Connective.ofName?_name, empty]
    rfl
  | cons item others =>
    rw [compileWithin_around each schema levels (by simp [listed]), listed, Report.result_map,
      Report.result_present_map]

end

end Layer

/-- What stands around a hole makes of a report: the condition in its place, and rejections
before and after. -/
structure Surroundings where
  place : Option Condition → Option Condition
  earlier : List Rejection
  later : List Rejection

def Surroundings.apply (around : Surroundings) (hole : Report (Option Condition)) :
    Report (Option Condition) :=
  ⟨around.place hole.result, around.earlier ++ hole.rejections ++ around.later⟩

namespace Layer

def siblings (schema : Schema) (levels : Nat) (parts : List Text) : Report (List Condition) :=
  .present ((parts.flatMap items).map (compileWithin schema levels))

def surroundings (schema : Schema) (levels : Nat) (layer : Layer) : Surroundings where
  place hole := combine? layer.connective <|
    (siblings schema levels layer.before).result ++ hole.toList ++
      (siblings schema levels layer.after).result
  earlier := (siblings schema levels layer.before).rejections
  later := (siblings schema levels layer.after).rejections

theorem isItem_siblings (layer : Layer) : ∀ part ∈ layer.before ++ layer.after, IsItem part :=
  fun part member => (layer.fragments part member).isItem

theorem isItem_parts (layer : Layer) (hole : IsItem item) :
    ∀ part ∈ layer.before ++ item :: layer.after, IsItem part := by
  intro part member
  rcases List.mem_append.mp member with before | after
  · exact layer.isItem_siblings part (List.mem_append_left _ before)
  · rcases List.mem_cons.mp after with rfl | after
    · exact hole
    · exact layer.isItem_siblings part (List.mem_append_right _ after)

/-- A combinator is an item itself, and not blank. -/
theorem isItem_fill (layer : Layer) (hole : IsItem item) :
    IsItem (layer.fill item) ∧ Text.isBlank (layer.fill item) = false :=
  ⟨isItem_around (layer.isItem_parts hole), isBlank_around (layer.isItem_parts hole)⟩

theorem isItem_without (layer : Layer) :
    IsItem layer.without ∧ Text.isBlank layer.without = false :=
  ⟨isItem_around layer.isItem_siblings, isBlank_around layer.isItem_siblings⟩

/-- One layer: what the siblings give stands on both sides of what the hole gives. -/
theorem compileWithin_fill (layer : Layer) (schema : Schema) (levels : Nat) (hole : IsItem item)
    (filled : Text.isBlank item = false) :
    compileWithin schema (levels + 1) (layer.fill item) =
      (layer.surroundings schema levels).apply (compileWithin schema levels item) := by
  have listed : items item = [item.trim] := by
    rw [hole.items_eq]
    simp [Text.trim_eq_nil_iff, filled]
  rw [fill, compileWithin_around (layer.isItem_parts hole) schema levels (by simp [listed])]
  simp only [Report.map, Surroundings.apply, surroundings, siblings, List.flatMap_append,
    List.flatMap_cons, listed, List.map_append, List.singleton_append, List.map_cons,
    compileWithin_trim, Report.result_present, Report.rejections_present, List.append_assoc]
  cases made : (compileWithin schema levels item).result <;> simp [made]

theorem result_without (layer : Layer) (schema : Schema) (levels : Nat) :
    (compileWithin schema (levels + 1) layer.without).result =
      (layer.surroundings schema levels).place none := by
  rw [without, result_around layer.isItem_siblings]
  simp [surroundings, siblings, Report.result_present_map]

end Layer

/-- Combinators around a hole, from the outside in; the innermost one holds the hole. -/
structure Context where
  outer : List Layer
  inner : Layer

namespace Context

def depth (context : Context) : Nat := context.outer.length + 1

def fill (context : Context) (part : Text) : Text :=
  context.outer.foldr Layer.fill (context.inner.fill part)

def without (context : Context) : Text := context.outer.foldr Layer.fill context.inner.without

end Context

theorem isItem_layers (layers : List Layer) (hole : IsItem part)
    (filled : Text.isBlank part = false) : IsItem (layers.foldr Layer.fill part) ∧
      Text.isBlank (layers.foldr Layer.fill part) = false := by
  induction layers with
  | nil => exact ⟨hole, filled⟩
  | cons layer inner ih => exact layer.isItem_fill ih.1

/-- By induction on the layers: each takes a level, and what it adds stands around what the
layers inside of it add. -/
theorem exists_surroundings (schema : Schema) (levels : Nat) (layers : List Layer) :
    ∃ around : Surroundings, ∀ part, IsItem part → Text.isBlank part = false →
      compileWithin schema (levels + layers.length) (layers.foldr Layer.fill part) =
        around.apply (compileWithin schema levels part) := by
  induction layers with
  | nil => exact ⟨⟨id, [], []⟩, fun part _ _ => by simp [Surroundings.apply]⟩
  | cons layer inner ih =>
    obtain ⟨around, inside⟩ := ih
    let outer := layer.surroundings schema (levels + inner.length)
    refine ⟨⟨outer.place ∘ around.place, outer.earlier ++ around.earlier,
      around.later ++ outer.later⟩, fun part hole filled => ?_⟩
    obtain ⟨item, shown⟩ := isItem_layers inner hole filled
    have step : compileWithin schema (levels + (layer :: inner).length)
        ((layer :: inner).foldr Layer.fill part) =
          outer.apply (compileWithin schema (levels + inner.length)
            (inner.foldr Layer.fill part)) := layer.compileWithin_fill schema _ item shown
    rw [step, inside part hole filled]
    simp [Surroundings.apply]

/-- What is compiled around a hole does not depend on what is in it, and with nothing in its
place the condition is the one of a hole that gives nothing. -/
theorem Context.exists_surroundings (schema : Schema) (context : Context)
    (bounded : context.depth ≤ greatestDepth) : ∃ around : Surroundings,
      (∀ part, IsItem part → Text.isBlank part = false → compile schema (context.fill part) =
        around.apply (compileWithin schema (greatestDepth + 1 - context.depth) part)) ∧
      (compile schema context.without).result = around.place none := by
  obtain ⟨levels, enough⟩ : ∃ levels, greatestDepth + 1 = levels + 1 + context.outer.length :=
    ⟨greatestDepth - context.outer.length, by simp only [depth] at bounded; omega⟩
  have left : greatestDepth + 1 - context.depth = levels := by
    simp only [depth]
    omega
  obtain ⟨around, inside⟩ := Condition.exists_surroundings schema (levels + 1) context.outer
  let last := context.inner.surroundings schema levels
  refine ⟨⟨around.place ∘ last.place, around.earlier ++ last.earlier,
    last.later ++ around.later⟩, fun part hole filled => ?_, ?_⟩
  · obtain ⟨item, shown⟩ := context.inner.isItem_fill hole
    rw [left, compile, enough, fill, inside _ item shown,
      context.inner.compileWithin_fill schema levels hole filled]
    simp [Surroundings.apply, last]
  · obtain ⟨item, shown⟩ := context.inner.isItem_without
    rw [compile, enough, without, inside _ item shown]
    exact congrArg around.place (context.inner.result_without schema levels)

/-- A fragment that comes to nothing with the levels that are left for it. -/
structure IsDropped (schema : Schema) (levels : Nat) (text : Text) : Prop where
  fragment : IsFragment text
  filled : Text.isBlank text = false
  absent : (compileWithin schema levels text).result = none

/-- What comes to nothing has no effect but its own rejections: a fragment below at most 64
combinators may be exchanged for another one, or left out, and the condition stays the same. Its
rejections stand in one run among those of its neighbours. -/
theorem compile_fill_of_dropped (schema : Schema) (context : Context)
    (bounded : context.depth ≤ greatestDepth)
    (one : IsDropped schema (greatestDepth + 1 - context.depth) first)
    (two : IsDropped schema (greatestDepth + 1 - context.depth) second) :
    let own (text : Text) :=
      (compileWithin schema (greatestDepth + 1 - context.depth) text).rejections
    (compile schema (context.fill first)).result = (compile schema (context.fill second)).result ∧
    (compile schema context.without).result = (compile schema (context.fill second)).result ∧
    ∃ earlier later,
      (compile schema (context.fill first)).rejections = earlier ++ own first ++ later ∧
      (compile schema (context.fill second)).rejections = earlier ++ own second ++ later := by
  intro own
  obtain ⟨around, inside, without⟩ := context.exists_surroundings schema bounded
  have first := inside first one.fragment.isItem one.filled
  have second := inside second two.fragment.isItem two.filled
  refine ⟨?_, ?_, around.earlier, around.later, congrArg Report.rejections first,
    congrArg Report.rejections second⟩
  · rw [first, second]
    exact congrArg around.place (one.absent.trans two.absent.symm)
  · rw [without, second]
    exact congrArg around.place two.absent.symm

/-- A disjunction around a conjunction around a hole, with siblings of every kind. -/
def nestedContext : Context where
  outer := [{
    connective := .or
    before := ["name.eq(x)".toList, [' ']]
    after := ["((a,b))".toList]
    lead := [' ']
    trail := []
    fragments := by decide +kernel
    blank_lead := by decide
    blank_trail := by decide }]
  inner := {
    connective := .and
    before := []
    after := ["id.gt(1)".toList, "y.eq(2)".toList]
    lead := []
    trail := [' ']
    fragments := by decide +kernel
    blank_lead := by decide
    blank_trail := by decide }

theorem compile_nestedContext :
    let first := "x.eq(1)".toList
    let second := "or(,and(id.eq))".toList
    nestedContext.fill first = " or(name.eq(x), ,and(x.eq(1),id.gt(1),y.eq(2)) ,((a,b)))".toList ∧
    IsDropped .subjects 63 first ∧ IsDropped .subjects 63 second ∧
    (compile .subjects (nestedContext.fill first)).result =
      (compile .subjects (nestedContext.fill second)).result ∧
    (compile .subjects nestedContext.without).result =
      (compile .subjects (nestedContext.fill second)).result := by
  intro first second
  have one : IsDropped .subjects 63 first :=
    ⟨by decide +kernel, by decide, Option.isNone_iff_eq_none.mp (by decide +kernel)⟩
  have two : IsDropped .subjects 63 second :=
    ⟨by decide +kernel, by decide, Option.isNone_iff_eq_none.mp (by decide +kernel)⟩
  obtain ⟨same, without, _⟩ := compile_fill_of_dropped .subjects nestedContext (by decide) one two
  exact ⟨by decide, one, two, same, without⟩

end RestQuery.Condition
