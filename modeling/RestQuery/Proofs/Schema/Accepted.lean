import RestQuery.Schema.Basic

/-! What a schema that was built promises. Its own columns stand in its table, and its
aggregates count columns that it has. -/
namespace RestQuery.Schema

def OwnColumn (schema : Schema) (column : Column) : Prop :=
  ∃ api, schema.column? api = some column

def RelatedColumn (schema : Schema) (column : Column) : Prop :=
  ∃ name relation api, schema.relation? name = some relation ∧ relation.column? api = some column

structure Accepted (schema : Schema) : Prop where
  owned : ∀ column, schema.OwnColumn column → column.table = schema.table
  counted : ∀ label column, schema.aggregate? label = some column → schema.OwnColumn column

/-- What declarations make, if all that they name exists. -/
def declared (root : Text) (declarations : List Declaration) : Schema where
  table := root
  columns := declaredColumns root declarations
  relations := declaredRelations declarations
  aggregates := NameMap.ofList <| (declaredAggregates declarations).filterMap fun (label, api) =>
    ((declaredColumns root declarations).get? api).map (label, ·)

/-- A build that succeeds gives exactly what was declared. -/
theorem build_ok (built : build root declarations = .ok schema) :
    schema = declared root declarations := by
  unfold build at built
  simp only at built
  split at built
  · contradiction
  · exact (Except.ok.inj built).symm

theorem accepted_of_build (built : build root declarations = .ok schema) : schema.Accepted := by
  have made := build_ok built
  subst made
  constructor
  · rintro column ⟨api, found⟩
    have declared := NameMap.mem_of_get?_ofList found
    obtain ⟨declaration, _, same⟩ := List.mem_filterMap.mp declared
    cases declaration <;> simp at same
    rw [← same.2]
    rfl
  · intro label column found
    have declared := NameMap.mem_of_get?_ofList found
    obtain ⟨⟨_, api⟩, _, same⟩ := List.mem_filterMap.mp declared
    obtain ⟨column, present, same⟩ := Option.map_eq_some_iff.mp same
    obtain ⟨rfl, rfl⟩ := Prod.mk.inj same
    exact ⟨api, present⟩

/-- An entity with a relation, whose join the build checks on both sides. -/
def subjectDeclarations : List Declaration := [
  .aggregate "count".toList "id".toList,
  .column "id".toList "id".toList, .column "name".toList "full_name".toList,
  .column "departmentId".toList "department_id".toList,
  .relation (((Relation.new "department".toList "departments".toList).addColumn
    "id".toList "id".toList).addColumn "title".toList "title".toList
    |>.setJoin "departmentId".toList "id".toList)]

def subjects : Schema where
  table := "subjects".toList
  columns := declaredColumns "subjects".toList subjectDeclarations
  relations := declaredRelations subjectDeclarations
  aggregates := .ofList [("count".toList, ⟨"subjects".toList, "id".toList⟩)]

theorem build_subjects : build "subjects".toList subjectDeclarations = .ok subjects := rfl

end RestQuery.Schema

/-! What a schema that was built promises of its relations. Each stands under its own name,
its columns stand under that name, too, and a join that it declares connects columns that
exist. -/
namespace RestQuery

namespace Relation

/-- The relations that declarations can be made of, each from its name and its table. -/
inductive IsDeclared : Relation → Prop
  | new (name table : Text) : IsDeclared (new name table)
  | addColumn (api sql : Text) : IsDeclared relation → IsDeclared (relation.addColumn api sql)
  | setJoin (own foreign : Text) : IsDeclared relation → IsDeclared (relation.setJoin own foreign)

/-- By induction on how the relation was made: a column is added under the relation's name. -/
theorem IsDeclared.table_eq_name {relation : Relation} (declared : relation.IsDeclared)
    (found : relation.column? api = some column) : column.table = relation.name := by
  induction declared with
  | new name table => contradiction
  | addColumn added sql _ ih =>
    rw [column?_addColumn] at found
    split at found
    · exact Option.some.inj found ▸ rfl
    · exact ih found
  | setJoin _ _ _ ih => exact ih found

inductive Step where
  | column (api sql : Text)
  | join (own foreign : Text)

namespace Step

def apply (relation : Relation) : Step → Relation
  | column api sql => relation.addColumn api sql
  | join own foreign => relation.setJoin own foreign

def sql? (api : Text) : Step → Option Text
  | column other sql => if api = other then some sql else none
  | join _ _ => none

def join? : Step → Option Join
  | column _ _ => none
  | join own foreign => some ⟨own, foreign⟩

end Step

/-- A relation that is declared by steps, one after the other. -/
def declare (name table : Text) (steps : List Step) : Relation :=
  steps.foldl Step.apply (new name table)

/-- The relation holds what the steps have last said of each of its columns and of its join. -/
structure Records (relation : Relation) (name table : Text) (steps : List Step) : Prop where
  named : relation.name = name
  placed : relation.table = table
  columns : ∀ api, relation.column? api =
    (steps.filterMap (Step.sql? api)).getLast?.map fun sql => ⟨name, sql⟩
  joined : relation.join = (steps.filterMap Step.join?).getLast?

variable {relation : Relation} {name table : Text} {steps : List Step}

theorem Records.apply (records : relation.Records name table steps) (step : Step) :
    (step.apply relation).Records name table (steps ++ [step]) := by
  obtain ⟨named, placed, columns, joined⟩ := records
  cases step with
  | column added sql =>
    refine ⟨named, placed, fun api => ?_, ?_⟩
    · rw [Step.apply, column?_addColumn, named, columns, List.filterMap_append]
      by_cases same : api = added <;> simp [Step.sql?, same]
    · rw [List.filterMap_append, Step.apply, addColumn, joined]
      simp [Step.join?]
  | join own foreign =>
    refine ⟨named, placed, fun api => ?_, ?_⟩
    · rw [Step.apply, column?_setJoin, columns, List.filterMap_append]
      simp [Step.sql?]
    · simp [List.filterMap_append, Step.join?, Step.apply, setJoin]

/-- By induction on the steps that are still to come. -/
theorem records_foldl (records : relation.Records name table steps) (more : List Step) :
    (more.foldl Step.apply relation).Records name table (steps ++ more) := by
  induction more generalizing relation steps with
  | nil => simpa using records
  | cons step more ih => simpa using ih (records.apply step)

theorem records_declare (name table : Text) (steps : List Step) :
    (declare name table steps).Records name table steps := by
  have start : (new name table).Records name table [] := ⟨rfl, rfl, fun _ => rfl, rfl⟩
  exact records_foldl start steps

theorem isDeclared_declare (name table : Text) (steps : List Step) :
    (declare name table steps).IsDeclared :=
  List.foldlRecOn steps Step.apply (.new name table) fun _ declared step _ => by
    cases step with
    | column api sql => exact .addColumn api sql declared
    | join own foreign => exact .setJoin own foreign declared

end Relation

namespace Schema

structure Linked (schema : Schema) : Prop where
  named : ∀ name relation, schema.relation? name = some relation → relation.name = name
  joined : ∀ name relation join, schema.relation? name = some relation →
    relation.join = some join → (schema.column? join.own).isSome ∧
      (relation.column? join.foreign).isSome

theorem mem_of_declaredRelations
    (found : (declaredRelations declarations).get? name = some relation) :
    .relation relation ∈ declarations ∧ relation.name = name := by
  obtain ⟨declaration, present, same⟩ := List.mem_filterMap.mp (NameMap.mem_of_get?_ofList found)
  cases declaration with
  | relation declared =>
    obtain ⟨rfl, rfl⟩ : declared.name = name ∧ declared = relation := by simpa using same
    exact ⟨present, rfl⟩
  | column => contradiction
  | aggregate => contradiction

/-- A relation is at fault only by a join that it declares and that connects no columns. -/
theorem joinFault?_eq_none_iff {columns : NameMap Column} {relation : Relation} :
    joinFault? root columns relation = none ↔ ∀ join, relation.join = some join →
      columns.contains join.own = true ∧ (relation.column? join.foreign).isSome = true := by
  cases declares : relation.join with
  | none => simp [joinFault?, declares]
  | some join =>
    have foreign : relation.columns.contains join.foreign =
      (relation.column? join.foreign).isSome := rfl
    cases own : columns.contains join.own <;>
      cases found : (relation.column? join.foreign).isSome <;>
        simp [joinFault?, declares, own, foreign, found]

/-- A build that succeeds has found no fault in any relation. -/
theorem joinFault?_of_build (built : build root declarations = .ok schema)
    (found : schema.relation? name = some relation) :
    joinFault? root schema.columns relation = none := by
  have made := build_ok built
  subst made
  unfold build at built
  simp only at built
  split at built
  · contradiction
  · next sound =>
    have faultless := (Option.or_eq_none_iff.mp sound).2
    exact List.findSome?_eq_none_iff.mp faultless (name, relation)
      ((NameMap.get?_eq_some_iff _).mp found)

theorem linked_of_build (built : build root declarations = .ok schema) : schema.Linked := by
  constructor
  · intro name relation found
    have made := build_ok built
    subst made
    exact (mem_of_declaredRelations found).2
  · intro name relation join found declares
    exact joinFault?_eq_none_iff.mp (joinFault?_of_build built found) join declares

/-- The columns of a relation stand under its name. -/
def Named (schema : Schema) : Prop :=
  ∀ name relation api column, schema.relation? name = some relation →
    relation.column? api = some column → column.table = name

theorem named_of_relations (built : build root declarations = .ok schema)
    (named : ∀ relation, .relation relation ∈ declarations → ∀ api column,
      relation.column? api = some column → column.table = relation.name) : schema.Named := by
  intro name relation api column found related
  have made := build_ok built
  subst made
  obtain ⟨present, rfl⟩ := mem_of_declaredRelations found
  exact named relation present api column related

theorem named_of_build (built : build root declarations = .ok schema)
    (declared : ∀ relation, .relation relation ∈ declarations → relation.IsDeclared) :
    schema.Named :=
  named_of_relations built fun relation present _ _ => (declared relation present).table_eq_name

end Schema
end RestQuery
