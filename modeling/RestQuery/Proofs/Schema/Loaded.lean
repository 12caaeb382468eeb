import RestQuery.Proofs.Schema.Accepted
import RestQuery.Schema.File

/-! The two ways to a schema, declarations that build and files that load. A file's relations
are declared under the names of their entries, so both ways make the same promises. -/
namespace RestQuery

namespace RelationDefinition

/-- The relation shows what its definition says, with its columns under its own name. -/
structure Describes (definition : RelationDefinition) (name : Text) (relation : Relation) :
    Prop where
  named : relation.name = name
  placed : relation.table = definition.table
  columns : ∀ api, relation.column? api =
    (definition.columns.get? api).map fun sql => ⟨name, sql⟩
  joined : relation.join = definition.join

theorem describes_toRelation (definition : RelationDefinition) (name : Text) :
    definition.Describes name (definition.toRelation name) :=
  ⟨rfl, rfl, fun _ => NameMap.get?_mapValues _ _, rfl⟩

/-- A definition describes one relation under a name. -/
theorem describes_iff {definition : RelationDefinition} {name : Text} {relation : Relation} :
    definition.Describes name relation ↔ definition.toRelation name = relation := by
  constructor
  · intro describes
    have columns : (definition.toRelation name).columns = relation.columns :=
      NameMap.ext_get? fun api =>
        ((definition.describes_toRelation name).columns api).trans (describes.columns api).symm
    obtain ⟨rfl, placed, _, joined⟩ := describes
    cases relation
    simp_all [toRelation]
  · rintro rfl
    exact definition.describes_toRelation name

end RelationDefinition

namespace EntityDefinition

variable {definition : EntityDefinition}

theorem column_mem_declarations : .column api sql ∈ definition.declarations ↔
    definition.columns.get? api = some sql := by
  simp [declarations, NameMap.get?_eq_some_iff]

theorem relation_mem_declarations : .relation relation ∈ definition.declarations ↔
    ∃ defined, definition.relations.get? relation.name = some defined ∧
      defined.Describes relation.name relation := by
  simp only [declarations, List.mem_append, List.mem_map, reduceCtorEq, and_false, exists_false,
    false_or, or_false, Declaration.relation.injEq, NameMap.get?_eq_some_iff,
    RelationDefinition.describes_iff]
  constructor
  · rintro ⟨⟨name, defined⟩, member, rfl⟩
    exact ⟨defined, member, rfl⟩
  · rintro ⟨defined, member, same⟩
    exact ⟨_, member, same⟩

theorem aggregate_mem_declarations : .aggregate label api ∈ definition.declarations ↔
    definition.aggregates.get? label = some api := by
  simp [declarations, NameMap.get?_eq_some_iff]

theorem table_eq_name (declared : .relation relation ∈ definition.declarations)
    (found : relation.column? api = some column) : column.table = relation.name := by
  obtain ⟨defined, _, describes⟩ := relation_mem_declarations.mp declared
  rw [describes.columns] at found
  obtain ⟨sql, _, rfl⟩ := Option.map_eq_some_iff.mp found
  rfl

end EntityDefinition

namespace Registry

/-- By induction on the definitions: what a name finds is what its definition builds, or what was
there before. Names are not repeated, so no later definition replaces it. -/
theorem get?_foldlM {definitions : List (Text × EntityDefinition)} {start registry : Registry}
    (ascending : Entries.Ascending definitions)
    (loaded : definitions.foldlM (fun registry (name, definition) =>
      (definition.build name).map fun schema => NameMap.insert registry name schema) start =
        .ok registry) (entity : Text) :
    (NameMap.get? registry entity).map .ok =
      ((Entries.find? entity definitions).map (·.build entity)).or
        ((NameMap.get? start entity).map .ok) := by
  induction definitions generalizing start with
  | nil =>
    obtain rfl : start = registry := Except.ok.inj loaded
    rfl
  | cons head rest ih =>
    obtain ⟨name, definition⟩ := head
    obtain ⟨least, tail⟩ := List.pairwise_cons.mp ascending
    rw [List.foldlM_cons] at loaded
    cases built : definition.build name with
    | error => simp [built, Except.map, bind, Except.bind] at loaded
    | ok schema =>
      simp only [built, Except.map, bind, Except.bind] at loaded
      rw [ih tail loaded]
      by_cases same : entity = name
      · subst same
        have absent : Entries.find? entity rest = none := Entries.find?_eq_none_of_lt least
        simp [Entries.find?, absent, built]
      · simp [Entries.find?, Ne.symm same, NameMap.get?_insert_of_ne _ same]

theorem exists_foldlM {definitions : List (Text × EntityDefinition)}
    (builds : ∀ entry ∈ definitions, ∃ schema, entry.2.build entry.1 = .ok schema)
    (start : Registry) : ∃ registry, definitions.foldlM (fun registry (name, definition) =>
      (definition.build name).map fun schema => NameMap.insert registry name schema) start =
        .ok registry := by
  induction definitions generalizing start with
  | nil => exact ⟨start, rfl⟩
  | cons head rest ih =>
    obtain ⟨⟨schema, built⟩, builds⟩ := List.forall_mem_cons.mp builds
    obtain ⟨registry, loaded⟩ := ih builds (NameMap.insert start head.1 schema)
    refine ⟨registry, ?_⟩
    rw [List.foldlM_cons]
    simp only [built, Except.map, bind, Except.bind]
    exact loaded

/-- A registry is made if every definition builds, and it holds what they build. -/
theorem ofDefinitions_eq_ok_iff {definitions : NameMap EntityDefinition} :
    ofDefinitions definitions = .ok registry ↔ ∀ entity,
      (NameMap.get? registry entity).map .ok = (definitions.get? entity).map (·.build entity) := by
  have gets {made : Registry} (loaded : ofDefinitions definitions = .ok made) (entity : Text) :
      (NameMap.get? made entity).map .ok = (definitions.get? entity).map (·.build entity) := by
    rw [get?_foldlM definitions.ascending loaded entity, NameMap.get?_empty, Option.map_none,
      Option.or_none]
    rfl
  refine ⟨gets, fun same => ?_⟩
  have builds : ∀ entry ∈ definitions.entries, ∃ schema, entry.2.build entry.1 = .ok schema := by
    intro (entity, definition) member
    have found := (NameMap.get?_eq_some_iff definitions).mpr member
    have held := same entity
    rw [found, Option.map_some] at held
    obtain ⟨schema, _, built⟩ := Option.map_eq_some_iff.mp held
    exact ⟨schema, built.symm⟩
  obtain ⟨made, loaded⟩ := exists_foldlM builds .empty
  have equal : registry = made := by
    apply NameMap.ext_get?
    intro entity
    have injective : Function.Injective (@Except.ok SchemaError Schema) :=
      fun _ _ equal => Except.ok.inj equal
    exact Option.map_injective injective ((same entity).trans (gets loaded entity).symm)
  rw [equal]
  exact loaded

theorem ofToml_eq_ok_iff : ofToml text = .ok registry ↔
    ∃ definitions, SchemaFile.definitions? text = some definitions ∧ ∀ entity,
      (NameMap.get? registry entity).map .ok = (definitions.get? entity).map (·.build entity) := by
  unfold ofToml
  cases SchemaFile.definitions? text with
  | none => simp
  | some definitions =>
    simp only [Option.some.injEq, exists_eq_left', ← ofDefinitions_eq_ok_iff]
    cases ofDefinitions definitions with
    | error fault => constructor <;> (intro loaded; contradiction)
    | ok made =>
      constructor
      · exact fun loaded => congrArg Except.ok (Except.ok.inj loaded)
      · exact fun loaded => congrArg Except.ok (Except.ok.inj loaded)

theorem built_of_ofToml (loaded : ofToml text = .ok registry)
    (found : NameMap.get? registry entity = some schema) :
    ∃ definition : EntityDefinition, definition.build entity = .ok schema := by
  obtain ⟨definitions, _, same⟩ := ofToml_eq_ok_iff.mp loaded
  have held := same entity
  rw [found, Option.map_some] at held
  obtain ⟨definition, _, built⟩ := Option.map_eq_some_iff.mp held.symm
  exact ⟨definition, built⟩

end Registry

namespace Schema

/-- A schema comes from declarations, or from a file. -/
inductive Arises : Schema → Prop
  | built : build root declarations = .ok schema →
      (∀ relation, .relation relation ∈ declarations → relation.IsDeclared) → Arises schema
  | loaded : Registry.ofToml text = .ok registry →
      NameMap.get? registry entity = some schema → Arises schema

/-- Either way there are declarations that build, and their relations name their columns. -/
theorem Arises.exists_build {schema : Schema} (arises : schema.Arises) :
    ∃ root declarations, build root declarations = .ok schema ∧
      ∀ relation, .relation relation ∈ declarations → ∀ api column,
        relation.column? api = some column → column.table = relation.name := by
  cases arises with
  | built built declared =>
    exact ⟨_, _, built, fun relation present _ _ => (declared relation present).table_eq_name⟩
  | loaded loaded found =>
    obtain ⟨definition, built⟩ := Registry.built_of_ofToml loaded found
    exact ⟨_, _, built, fun _ present _ _ => definition.table_eq_name present⟩

theorem Arises.accepted {schema : Schema} (arises : schema.Arises) : schema.Accepted := by
  obtain ⟨_, _, built, _⟩ := arises.exists_build
  exact accepted_of_build built

theorem Arises.linked {schema : Schema} (arises : schema.Arises) : schema.Linked := by
  obtain ⟨_, _, built, _⟩ := arises.exists_build
  exact linked_of_build built

theorem Arises.named {schema : Schema} (arises : schema.Arises) : schema.Named := by
  obtain ⟨_, _, built, named⟩ := arises.exists_build
  exact named_of_relations built named

end Schema
end RestQuery
