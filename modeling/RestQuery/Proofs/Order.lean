import Mathlib.Data.List.Forall2
import RestQuery.Clauses
import RestQuery.Proofs.Schema.Accepted
import RestQuery.Proofs.Token.Segments

/-! The grammar of orders. An item is a path, which names its column last, and its direction is a
minus sign before the path or a name after it. Each item of an order gives one term or one
rejection, in the order of the items. -/
namespace RestQuery.OrderTerm

open Token

/-- The ways in which an item writes a direction and the name of a column. After a minus sign a
last name is no direction, and a direction that is not written is the ascending one. -/
inductive Writes : Text → Direction → Text → Prop
  | minus {blanks : Text} {path : Path} : Text.isBlank blanks = true → path.IsWritten →
      path.getLast? = some name → Writes ('-' :: (blanks ++ path.toText)) .desc name
  | ending (before : Path) (direction : Direction) :
      Path.IsWritten (before ++ [name, direction.name]) →
      Writes (Path.toText (before ++ [name, direction.name])) direction name
  | plain (before : Path) : Path.IsWritten (before ++ [name]) →
      (∀ direction : Direction, name ≠ direction.name) →
      Writes (Path.toText (before ++ [name])) .asc name

/-- What an item comes to: a term for a column of the entity, or the reason why it is dropped. -/
inductive ComesTo (schema : Schema) (item : Text) : Except Rejection OrderTerm → Prop
  | term {way : Direction} {found : Column} : Writes item way name →
      schema.column? name = some found → ComesTo schema item (.ok ⟨found, way⟩)
  | unknown {way : Direction} : Writes item way name → schema.column? name = none →
      ComesTo schema item (.error (.unknown name))
  | malformed : (∀ way name, ¬Writes item way name) →
      ComesTo schema item (.error (.malformed item))

variable {item name : Text} {path : Path} {direction : Direction}

theorem shape?_minus (rest : Text) : shape? ('-' :: rest) = (Path.read? rest).map (.desc, ·) := rfl

theorem shape?_of_head (apart : ∀ rest, item ≠ '-' :: rest) :
    shape? item = (Path.read? item).map fun path =>
      if path.getLast? = some Direction.asc.name then (.asc, path.dropLast)
      else if path.getLast? = some Direction.desc.name then (.desc, path.dropLast)
      else (.asc, path) := by
  unfold shape?
  split
  · exact absurd rfl (apart _)
  · rfl

/-- A path does not start with a minus sign. -/
theorem shape?_toText (written : path.IsWritten) :
    shape? path.toText = some (
      if path.getLast? = some Direction.asc.name then (.asc, path.dropLast)
      else if path.getLast? = some Direction.desc.name then (.desc, path.dropLast)
      else (.asc, path)) := by
  have apart : ∀ rest, path.toText ≠ '-' :: rest := by
    intro rest same
    obtain ⟨c, others, start, word⟩ := Path.start_toText written.filled written.identifiers
    rw [start] at same
    obtain ⟨rfl, _⟩ := List.cons.inj same
    contradiction
  rw [shape?_of_head apart, written.read?_toText]
  rfl

/-- A path with the shape that it has as an item. -/
theorem writes_toText {shape : Path} (written : path.IsWritten)
    (shaped : shape? path.toText = some (direction, shape)) (last : shape.getLast? = some name) :
    Writes path.toText direction name := by
  obtain ⟨before, rfl⟩ := List.getLast?_eq_some_iff.mp last
  have ended (ends : path.getLast? = some direction.name) (same : path.dropLast = before ++ [name]) :
      Writes path.toText direction name := by
    obtain ⟨others, rfl⟩ := List.getLast?_eq_some_iff.mp ends
    rw [List.dropLast_concat] at same
    subst same
    simpa using Writes.ending before direction (by simpa using written)
  rw [shape?_toText written] at shaped
  split at shaped
  · next ascending =>
    obtain ⟨rfl, same⟩ := Prod.mk.inj (Option.some.inj shaped)
    exact ended ascending same
  · next notAscending =>
    split at shaped
    · next descending =>
      obtain ⟨rfl, same⟩ := Prod.mk.inj (Option.some.inj shaped)
      exact ended descending same
    · next notDescending =>
      obtain ⟨rfl, rfl⟩ := Prod.mk.inj (Option.some.inj shaped)
      apply Writes.plain before written
      intro direction same
      subst same
      cases direction
      · exact notAscending List.getLast?_concat
      · exact notDescending List.getLast?_concat

/-- Blanks between the minus sign and the path are trimmed with the path, and there are none
after it. -/
theorem writes_minus {rest : Text} (trimmed : Text.trim ('-' :: rest) = '-' :: rest)
    (read : Path.read? rest = some path) (last : path.getLast? = some name) :
    Writes ('-' :: rest) .desc name := by
  obtain ⟨written, text⟩ := Path.read?_eq_some_iff.mp read
  have ended : ∀ c ∈ rest.getLast?, Text.isWhiteSpace c = false := by
    intro c member
    apply Text.last_of_trim trimmed
    rw [List.getLast?_cons, Option.mem_def.mp member]
    rfl
  obtain ⟨blanks, blank, whole⟩ := Text.exists_lead ended
  rw [whole, text]
  exact .minus blank written last

/-- Every way to write a direction is a shape. -/
theorem Writes.exists_shape (writes : Writes item direction name) :
    ∃ path, shape? item = some (direction, path) ∧ path.getLast? = some name := by
  cases writes with
  | @minus _ blanks path blank written last =>
    have read : Path.read? (blanks ++ path.toText) = some path := by
      refine Path.read?_eq_some_iff.mpr ⟨written, ?_⟩
      rw [Text.trim, Text.trimStart_blanks_append blank]
      exact written.trim_toText
    exact ⟨path, by rw [shape?_minus, read]; rfl, last⟩
  | ending before direction written =>
    have last : (before ++ [name, direction.name]).getLast? = some direction.name := by simp
    have others : (before ++ [name, direction.name]).dropLast = before ++ [name] := by simp
    refine ⟨before ++ [name], ?_, List.getLast?_concat⟩
    rw [shape?_toText written, last, others]
    cases direction <;> rfl
  | plain before written apart =>
    have last : (before ++ [name]).getLast? = some name := List.getLast?_concat
    refine ⟨before ++ [name], ?_, last⟩
    rw [shape?_toText written, last]
    simp [apart]

/-- An item has a shape that names a column exactly in the ways to write one. -/
theorem shape?_iff (trimmed : item.trim = item) :
    (∃ path, shape? item = some (direction, path) ∧ path.getLast? = some name) ↔
      Writes item direction name := by
  refine ⟨?_, Writes.exists_shape⟩
  rintro ⟨path, shaped, last⟩
  by_cases minus : ∃ rest, item = '-' :: rest
  · obtain ⟨rest, rfl⟩ := minus
    rw [shape?_minus] at shaped
    obtain ⟨path, read, same⟩ := Option.map_eq_some_iff.mp shaped
    obtain ⟨rfl, rfl⟩ := Prod.mk.inj same
    exact writes_minus trimmed read last
  · have apart : ∀ rest, item ≠ '-' :: rest := fun rest same => minus ⟨rest, same⟩
    obtain ⟨whole, read, _⟩ := Option.map_eq_some_iff.mp ((shape?_of_head apart).symm.trans shaped)
    obtain ⟨written, text⟩ := Path.read?_eq_some_iff.mp read
    rw [trimmed] at text
    subst text
    exact writes_toText written shaped last

/-- An item without a shape that names a column is malformed, as nothing writes it. -/
theorem comesTo_ofItem (schema : Schema) (trimmed : item.trim = item) :
    ComesTo schema item (ofItem schema item) := by
  unfold ofItem
  split
  · next shapeless =>
    apply ComesTo.malformed
    intro way name writes
    obtain ⟨path, shaped, _⟩ := (shape?_iff trimmed).mpr writes
    rw [shapeless] at shaped
    contradiction
  · next way path shaped =>
    split
    · next nameless =>
      apply ComesTo.malformed
      intro other name writes
      obtain ⟨path, same, last⟩ := (shape?_iff trimmed).mpr writes
      obtain ⟨rfl, rfl⟩ := Prod.mk.inj (Option.some.inj (shaped.symm.trans same))
      rw [nameless] at last
      contradiction
    · next name last =>
      have writes := (shape?_iff trimmed).mp ⟨path, shaped, last⟩
      split
      · next absent => exact .unknown writes absent
      · next found => exact .term writes found

theorem ComesTo.ofItem_eq (comes : ComesTo schema item outcome) (trimmed : item.trim = item) :
    ofItem schema item = outcome := by
  cases comes with
  | term writes found =>
    obtain ⟨path, shaped, last⟩ := (shape?_iff trimmed).mpr writes
    simp only [ofItem, shaped, last, found]
  | unknown writes absent =>
    obtain ⟨path, shaped, last⟩ := (shape?_iff trimmed).mpr writes
    simp only [ofItem, shaped, last, absent]
  | malformed unwritten =>
    cases shaped : shape? item with
    | none => simp only [ofItem, shaped]
    | some shape =>
      cases last : shape.2.getLast? with
      | none => simp only [ofItem, shaped, last]
      | some name => exact absurd ((shape?_iff trimmed).mp ⟨shape.2, shaped, last⟩) (unwritten _ _)

theorem ofItem_eq_iff (schema : Schema) (trimmed : item.trim = item)
    (outcome : Except Rejection OrderTerm) :
    ofItem schema item = outcome ↔ ComesTo schema item outcome :=
  ⟨fun same => same ▸ comesTo_ofItem schema trimmed, fun comes => comes.ofItem_eq trimmed⟩

def rejection? : Except Rejection OrderTerm → Option Rejection
  | .ok _ => none
  | .error rejection => some rejection

/-- An order compiles by its grammar. Every item that the text lists comes to one thing only, a term
or a rejection, and the terms and the rejections of the order are those of its items, in their
order. -/
theorem compile_comesTo (schema : Schema) (text : Text) :
    ∃ listed outcomes, Lists text listed ∧ List.Forall₂
        (fun item outcome => ∀ other, ComesTo schema item other ↔ other = outcome)
        listed outcomes ∧
      (compile schema text).result = outcomes.filterMap Except.toOption ∧
      (compile schema text).rejections = outcomes.filterMap rejection? := by
  refine ⟨items text, (items text).map (ofItem schema), items_eq_iff_lists.mp rfl, ?_, ?_, ?_⟩
  · rw [List.forall₂_map_right_iff, List.forall₂_same]
    intro item member other
    rw [← ofItem_eq_iff schema (trim_of_mem_items member), eq_comm]
  · rw [compile, Report.result_present_map, List.filterMap_map]
    apply List.filterMap_congr
    intro item _
    cases made : ofItem schema item <;> simp [Report.ofExcept, Except.toOption, made]
  · rw [compile, Report.rejections_present, List.filterMap_eq_flatMap_toList, List.flatMap_map,
      List.flatMap_map]
    apply List.flatMap_congr
    intro item _
    cases ofItem schema item <;> rfl

/-- Blanks are no item, and the items without a term are rejected in their order. -/
theorem compile_comesTo_mixed :
    let text := "-departmentId, ,name.desc,x,(id),department.id ".toList
    let listed := ["-departmentId".toList, "name.desc".toList, "x".toList, "(id)".toList,
      "department.id".toList]
    ∃ outcomes, Lists text listed ∧ List.Forall₂
        (fun item outcome => ∀ other, ComesTo .subjects item other ↔ other = outcome)
        listed outcomes ∧
      outcomes.filterMap Except.toOption = [
        ⟨⟨"subjects".toList, "department_id".toList⟩, .desc⟩,
        ⟨⟨"subjects".toList, "full_name".toList⟩, .desc⟩,
        ⟨⟨"subjects".toList, "id".toList⟩, .asc⟩] ∧
      outcomes.filterMap rejection? = [.unknown "x".toList, .malformed "(id)".toList] := by
  intro text listed
  obtain ⟨found, outcomes, lists, each, terms, rejections⟩ := compile_comesTo .subjects text
  have read : items text = listed := by decide
  obtain rfl : listed = found := read.symm.trans (items_eq_iff_lists.mpr lists)
  exact ⟨outcomes, lists, each, terms.symm.trans (by decide +kernel),
    rejections.symm.trans (by decide +kernel)⟩

end RestQuery.OrderTerm
