import RestQuery.Proofs.Schema.Declared
import RestQuery.Proofs.Schema.Loaded

/-! Validation of schemas and of the files that define them. The tables of a definition hold no
name twice, so that all that it declares stands: a file loads if the names in its definitions refer
to something, and its schemas show what the definitions say. -/
namespace RestQuery

namespace EntityDefinition

/-- Every aggregate counts a column of the entity, and every join connects a column of the entity
with one of the relation. -/
structure Resolves (definition : EntityDefinition) : Prop where
  counted : ∀ label api, definition.aggregates.get? label = some api →
    (definition.columns.get? api).isSome
  joined : ∀ name relation join, definition.relations.get? name = some relation →
    relation.join = some join →
      (definition.columns.get? join.own).isSome ∧ (relation.columns.get? join.foreign).isSome

/-- The schema shows what the definition of the entity says. -/
structure Describes (definition : EntityDefinition) (entity : Text) (schema : Schema) : Prop where
  placed : schema.table = definition.table.getD entity
  columns : ∀ api column, schema.column? api = some column ↔
    ∃ sql, definition.columns.get? api = some sql ∧ column = ⟨schema.table, sql⟩
  relations : ∀ name relation, schema.relation? name = some relation ↔
    ∃ defined, definition.relations.get? name = some defined ∧ defined.Describes name relation
  aggregates : ∀ label column, schema.aggregate? label = some column ↔
    ∃ api, definition.aggregates.get? label = some api ∧ schema.column? api = some column

variable {definition : EntityDefinition} {entity : Text} {schema : Schema}

/-- Places differ in their kinds or in the names of one table. -/
theorem nodup_places (definition : EntityDefinition) :
    (definition.declarations.map Declaration.place).Nodup := by
  have distinct {α : Type} (map : NameMap α) (kind : Declaration.Kind) :
      (map.entries.map fun entry => (kind, entry.1)).Nodup :=
    List.pairwise_map.mpr (map.ascending.imp fun less same =>
      Text.ne_of_lt less (Prod.mk.inj same).2)
  simp only [declarations, List.map_append, List.map_map, Function.comp_def, Declaration.place]
  refine ((distinct definition.columns .column).append
    (distinct definition.relations .relation) ?_).append
    (distinct definition.aggregates .aggregate) ?_
  · intro place first second
    obtain ⟨_, _, rfl⟩ := List.mem_map.mp first
    simp at second
  · intro place first second
    obtain ⟨_, _, rfl⟩ := List.mem_map.mp second
    simp at first

theorem stands_declarations_iff : Declaration.Stands definition.declarations declaration ↔
    declaration ∈ definition.declarations :=
  Declaration.stands_iff_mem definition.nodup_places

theorem resolves_declarations_iff :
    Schema.Resolves definition.declarations ↔ definition.Resolves := by
  have columns (api : Text) : (∃ sql, .column api sql ∈ definition.declarations) ↔
      (definition.columns.get? api).isSome := by
    simp only [column_mem_declarations, Option.isSome_iff_exists]
  constructor
  · rintro ⟨counted, joined⟩
    refine ⟨fun label api found => ?_, fun name relation join found declares => ?_⟩
    · exact (columns api).mp (counted label api (aggregate_mem_declarations.mpr found))
    · have declared : .relation (relation.toRelation name) ∈ definition.declarations :=
        relation_mem_declarations.mpr ⟨relation, found, relation.describes_toRelation name⟩
      obtain ⟨own, foreign⟩ := joined _ join (stands_declarations_iff.mpr declared) declares
      rw [(relation.describes_toRelation name).columns, Option.isSome_map] at foreign
      exact ⟨(columns join.own).mp own, foreign⟩
  · rintro ⟨counted, joined⟩
    refine ⟨fun label api declared => ?_, fun relation join stands declares => ?_⟩
    · exact (columns api).mpr (counted label api (aggregate_mem_declarations.mp declared))
    · obtain ⟨defined, found, describes⟩ :=
        relation_mem_declarations.mp (stands_declarations_iff.mp stands)
      rw [describes.joined] at declares
      obtain ⟨own, foreign⟩ := joined _ defined join found declares
      rw [describes.columns, Option.isSome_map]
      exact ⟨(columns join.own).mpr own, foreign⟩

theorem relation_stands_iff : relation.name = name ∧
    Declaration.Stands definition.declarations (.relation relation) ↔
      ∃ defined, definition.relations.get? name = some defined ∧
        defined.Describes name relation := by
  rw [stands_declarations_iff, relation_mem_declarations]
  constructor
  · rintro ⟨rfl, declared⟩
    exact declared
  · rintro ⟨defined, found, describes⟩
    obtain rfl := describes.named
    exact ⟨rfl, defined, found, describes⟩

theorem follows_declarations_iff :
    schema.Follows (definition.table.getD entity) definition.declarations ↔
      definition.Describes entity schema := by
  constructor
  · rintro ⟨placed, columns, relations, aggregates⟩
    simp only [stands_declarations_iff, column_mem_declarations, ← placed] at columns
    simp only [relation_stands_iff] at relations
    simp only [stands_declarations_iff, column_mem_declarations, aggregate_mem_declarations,
      ← placed] at aggregates
    refine ⟨placed, columns, relations, fun label column => ?_⟩
    simp only [aggregates, columns, exists_and_left]
  · rintro ⟨placed, columns, relations, aggregates⟩
    constructor
    case table => exact placed
    case columns =>
      simpa only [stands_declarations_iff, column_mem_declarations, ← placed] using columns
    case relations => simpa only [relation_stands_iff] using relations
    case aggregates =>
      simpa only [stands_declarations_iff, column_mem_declarations, aggregate_mem_declarations,
        ← placed, columns, exists_and_left] using aggregates

theorem build_eq_ok_iff : definition.build entity = .ok schema ↔
    definition.Resolves ∧ definition.Describes entity schema := by
  rw [build, Schema.build_eq_ok_iff_follows, resolves_declarations_iff, follows_declarations_iff]

theorem exists_build_iff :
    (∃ schema, definition.build entity = .ok schema) ↔ definition.Resolves := by
  rw [← resolves_declarations_iff, ← Schema.exists_build_iff]
  rfl

end EntityDefinition

namespace Registry

/-- A file loads if its definitions resolve. -/
theorem exists_ofToml_iff : (∃ registry, ofToml text = .ok registry) ↔
    ∃ definitions, SchemaFile.definitions? text = some definitions ∧ ∀ entity definition,
      definitions.get? entity = some definition → definition.Resolves := by
  constructor
  · rintro ⟨registry, loaded⟩
    obtain ⟨definitions, read, same⟩ := ofToml_eq_ok_iff.mp loaded
    refine ⟨definitions, read, fun entity definition found => ?_⟩
    have held := same entity
    rw [found, Option.map_some] at held
    obtain ⟨schema, _, built⟩ := Option.map_eq_some_iff.mp held
    exact EntityDefinition.exists_build_iff.mp ⟨schema, built.symm⟩
  · rintro ⟨definitions, read, resolves⟩
    have builds : ∀ entry ∈ definitions.entries, ∃ schema, entry.2.build entry.1 = .ok schema :=
      fun (entity, definition) member => EntityDefinition.exists_build_iff.mpr
        (resolves entity definition ((NameMap.get?_eq_some_iff definitions).mpr member))
    obtain ⟨registry, loaded⟩ := exists_foldlM builds .empty
    exact ⟨registry, ofToml_eq_ok_iff.mpr ⟨definitions, read, ofDefinitions_eq_ok_iff.mp loaded⟩⟩

/-- The schemas of a file that loads are those that its definitions describe. -/
theorem describes_of_ofToml (loaded : ofToml text = .ok registry) :
    ∃ definitions, SchemaFile.definitions? text = some definitions ∧ ∀ entity schema,
      NameMap.get? registry entity = some schema ↔ ∃ definition,
        definitions.get? entity = some definition ∧ definition.Describes entity schema := by
  obtain ⟨definitions, read, same⟩ := ofToml_eq_ok_iff.mp loaded
  obtain ⟨_, again, resolves⟩ := exists_ofToml_iff.mp ⟨registry, loaded⟩
  obtain rfl := Option.some.inj (read.symm.trans again)
  refine ⟨definitions, read, fun entity schema => ?_⟩
  have held : NameMap.get? registry entity = some schema ↔ ∃ definition,
      definitions.get? entity = some definition ∧ definition.build entity = .ok schema := by
    rw [← Option.map_eq_some_iff, ← same, Option.map_eq_some_iff]
    simp
  rw [held]
  refine exists_congr fun definition => and_congr_right fun found => ?_
  rw [EntityDefinition.build_eq_ok_iff]
  exact and_iff_right (resolves entity definition found)

theorem ofToml_eq_ok_iff_describes : ofToml text = .ok registry ↔
    ∃ definitions, SchemaFile.definitions? text = some definitions ∧
      (∀ entity definition, definitions.get? entity = some definition → definition.Resolves) ∧
      ∀ entity schema, NameMap.get? registry entity = some schema ↔ ∃ definition,
        definitions.get? entity = some definition ∧ definition.Describes entity schema := by
  constructor
  · intro loaded
    obtain ⟨definitions, read, resolves⟩ := exists_ofToml_iff.mp ⟨registry, loaded⟩
    obtain ⟨_, again, describes⟩ := describes_of_ofToml loaded
    obtain rfl := Option.some.inj (read.symm.trans again)
    exact ⟨definitions, read, resolves, describes⟩
  · rintro ⟨definitions, read, resolves, describes⟩
    obtain ⟨made, loaded⟩ := exists_ofToml_iff.mpr ⟨definitions, read, resolves⟩
    obtain ⟨_, again, others⟩ := describes_of_ofToml loaded
    obtain rfl := Option.some.inj (read.symm.trans again)
    have same : made = registry := NameMap.ext_get? fun entity => Option.ext fun schema =>
      (others entity schema).trans (describes entity schema).symm
    exact same ▸ loaded

end Registry

namespace Schema

/-- Validation is exact. Declarations build if every aggregate among them counts a declared column
and every join that stands connects existing columns. The schema then holds what the last
declaration for each place says, its columns stand in its table and those of its relations under
the relations' names; and declarations for different places may change their order. A relation
holds what its own steps have last said. A file loads if its definitions resolve, and its schemas
show what they say. -/
theorem build_validates (root : Text) (declarations : List Declaration) (text : Text) :
    ((∃ schema, build root declarations = .ok schema) ↔ Resolves declarations) ∧
    (∀ schema, build root declarations = .ok schema → Follows schema root declarations ∧
      ((∀ relation, .relation relation ∈ declarations → relation.IsDeclared) → schema.Named)) ∧
    (∀ others, SamePlaces others declarations → ∀ schema,
      build root others = .ok schema ↔ build root declarations = .ok schema) ∧
    (∀ name table steps, (Relation.declare name table steps).IsDeclared ∧
      (Relation.declare name table steps).Records name table steps) ∧
    ((∃ registry, Registry.ofToml text = .ok registry) ↔
      ∃ definitions, SchemaFile.definitions? text = some definitions ∧ ∀ entity definition,
        definitions.get? entity = some definition → definition.Resolves) ∧
    ∀ registry, Registry.ofToml text = .ok registry ↔
      ∃ definitions, SchemaFile.definitions? text = some definitions ∧
        (∀ entity definition, definitions.get? entity = some definition → definition.Resolves) ∧
        ∀ entity schema, NameMap.get? registry entity = some schema ↔ ∃ definition,
          definitions.get? entity = some definition ∧ definition.Describes entity schema :=
  ⟨exists_build_iff,
    fun _ built => ⟨(build_eq_ok_iff_follows.mp built).2, named_of_build built⟩,
    fun _ same _ => same.build_iff,
    fun name table steps => ⟨Relation.isDeclared_declare name table steps,
      Relation.records_declare name table steps⟩,
    Registry.exists_ofToml_iff,
    fun _ => Registry.ofToml_eq_ok_iff_describes⟩

def subjectsFile : Text := ['\n'].intercalate [
  "[entities.subjects.columns]".toList, "id = 'id'".toList, "name = 'full_name'".toList,
  "departmentId = 'department_id'".toList,
  "[entities.subjects.relations.department]".toList, "table = 'departments'".toList,
  "[entities.subjects.relations.department.columns]".toList, "id = 'id'".toList,
  "title = 'title'".toList,
  "[entities.subjects.relations.department.join]".toList, "local = 'departmentId'".toList,
  "foreign = 'id'".toList,
  "[entities.subjects.aggregates]".toList, "count = 'id'".toList]

theorem build_validates_redeclared :
    let root := "subjects".toList
    let steps : List Relation.Step := [.column "id".toList "key".toList,
      .join "y".toList "z".toList, .column "id".toList "id".toList,
      .column "title".toList "title".toList, .join "departmentId".toList "id".toList]
    let department := Relation.declare "department".toList "departments".toList steps
    let astray := Relation.declare "department".toList "x".toList (steps.take 2)
    let name := Declaration.column "name".toList "old".toList
    let declarations := .relation astray :: name :: subjectDeclarations
    let others := name :: subjectDeclarations.take 3 ++
      .relation astray :: subjectDeclarations.drop 3
    build root declarations = .ok subjects ∧ Resolves declarations ∧
      Follows subjects root declarations ∧
      (∀ relation, .relation relation ∈ declarations → relation.IsDeclared) ∧ subjects.Named ∧
      SamePlaces others declarations ∧ build root others = .ok subjects ∧
      ¬Resolves (.aggregate "count".toList "y".toList :: declarations) ∧
      subjects.relation? "department".toList = some department ∧
      department.Records "department".toList "departments".toList steps ∧
      ∃ registry definitions definition, Registry.ofToml subjectsFile = .ok registry ∧
        SchemaFile.definitions? subjectsFile = some definitions ∧
        definitions.get? root = some definition ∧ definition.Describes root subjects := by
  intro root steps department astray name declarations others
  have built : build root declarations = .ok subjects := rfl
  obtain ⟨builds, follows, reordered, relations, -, loads⟩ :=
    build_validates root declarations subjectsFile
  have same : SamePlaces others declarations := by decide +kernel
  have declared : ∀ relation, .relation relation ∈ declarations → relation.IsDeclared := by
    intro relation member
    simp only [declarations, subjectDeclarations, name, List.mem_cons, reduceCtorEq, false_or,
      List.not_mem_nil, or_false, Declaration.relation.injEq] at member
    rcases member with rfl | rfl
    · exact (relations _ _ _).1
    · exact .setJoin _ _ (.addColumn _ _ (.addColumn _ _ (.new _ _)))
  have dangling : ¬Resolves (.aggregate "count".toList "y".toList :: declarations) := by
    intro resolves
    obtain ⟨sql, member⟩ := resolves.counted "count".toList "y".toList (by simp)
    have absent : ∀ declaration ∈ Declaration.aggregate "count".toList "y".toList :: declarations,
        declaration.place ≠ (.column, "y".toList) := by decide +kernel
    exact absent _ member rfl
  have file : ∃ registry definitions definition, Registry.ofToml subjectsFile = .ok registry ∧
      SchemaFile.definitions? subjectsFile = some definitions ∧
      definitions.get? root = some definition ∧ definition.Describes root subjects := by
    have found : (Registry.ofToml subjectsFile).toOption.bind (NameMap.get? · root) =
        some subjects := by decide +kernel
    cases loaded : Registry.ofToml subjectsFile with
    | error => simp [loaded, Except.toOption] at found
    | ok registry =>
      rw [loaded] at found
      obtain ⟨definitions, read, -, describes⟩ := (loads registry).mp loaded
      obtain ⟨definition, present, described⟩ := (describes root subjects).mp found
      exact ⟨registry, definitions, definition, rfl, read, present, described⟩
  exact ⟨built, builds.mp ⟨_, built⟩, (follows _ built).1, declared, (follows _ built).2 declared,
    same, (reordered others same _).mpr built, dangling, by decide +kernel, (relations _ _ _).2,
    file⟩

end Schema
end RestQuery
