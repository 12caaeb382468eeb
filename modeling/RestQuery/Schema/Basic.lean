import RestQuery.Names

/-! Schemas: what a client may name of one entity. Every column has a name of its own for
clients and a handle for statements; a relation's columns are reached under its name. -/
namespace RestQuery

/-- A column as a statement writes it: the table, or the name it is joined under, and the
column's name in the database. -/
structure Column where
  table : Text
  name : Text
  deriving DecidableEq, Repr

def Column.toText (column : Column) : Text := column.table ++ '.' :: column.name

/-- How a relation is joined, by the clients' names of a column on either side. -/
structure Join where
  own : Text
  foreign : Text
  deriving DecidableEq, Repr

structure Relation where
  name : Text
  table : Text
  columns : NameMap Column
  join : Option Join
  deriving DecidableEq, Repr

namespace Relation

def new (name table : Text) : Relation := ⟨name, table, .empty, none⟩

/-- Shows a column of the related table under a name for clients. -/
def addColumn (relation : Relation) (api sql : Text) : Relation :=
  { relation with columns := relation.columns.insert api ⟨relation.name, sql⟩ }

def setJoin (relation : Relation) (own foreign : Text) : Relation :=
  { relation with join := some ⟨own, foreign⟩ }

def column? (relation : Relation) (api : Text) : Option Column := relation.columns.get? api

theorem column?_addColumn (relation : Relation) (api sql wanted : Text) :
    (relation.addColumn api sql).column? wanted =
      if wanted = api then some ⟨relation.name, sql⟩ else relation.column? wanted := by
  unfold addColumn column?
  split
  · next same => rw [same, NameMap.get?_insert_self]
  · next apart => rw [NameMap.get?_insert_of_ne _ apart]

theorem column?_setJoin (relation : Relation) (own foreign : Text) :
    (relation.setJoin own foreign).column? = relation.column? := rfl

end Relation

structure Schema where
  table : Text
  columns : NameMap Column
  relations : NameMap Relation
  aggregates : NameMap Column
  deriving DecidableEq, Repr

namespace Schema

def column? (schema : Schema) (api : Text) : Option Column := schema.columns.get? api

def relation? (schema : Schema) (name : Text) : Option Relation := schema.relations.get? name

def aggregate? (schema : Schema) (label : Text) : Option Column := schema.aggregates.get? label

end Schema

/-- What may be named at one level of a projection: an entity with its relations, or the
columns of a relation, below which there is no further level. -/
inductive Scope where
  | entity (schema : Schema)
  | relation (relation : Relation)

namespace Scope

def column? : Scope → Text → Option Column
  | .entity schema => schema.column?
  | .relation target => target.column?

def relation? : Scope → Text → Option Relation
  | .entity schema => schema.relation?
  | .relation _ => fun _ => none

end Scope

/-! Schemas built from declarations. Of several declarations of one name the last stands,
yet every aggregate declared must count a column of the entity, and every join that stands
must connect columns that exist. -/

inductive Declaration where
  | column (api sql : Text)
  | relation (relation : Relation)
  | aggregate (label api : Text)
  deriving DecidableEq, Repr

/-- Names in a schema that refer to no column. -/
inductive SchemaError where
  | aggregate (label table column : Text)
  | join (relation column table : Text)
  deriving DecidableEq, Repr

def SchemaError.message (error : SchemaError) : Text :=
  "Schema error: ".toList ++ match error with
  | .aggregate label table column =>
    "aggregate '".toList ++ label ++ "' on '".toList ++ table ++
      "' names unknown column '".toList ++ column ++ ['\'']
  | .join relation column table =>
    "relation '".toList ++ relation ++ "' joins on unknown column '".toList ++ column ++
      "' of '".toList ++ table ++ ['\'']

namespace Schema

def declaredColumns (table : Text) (declarations : List Declaration) : NameMap Column :=
  NameMap.ofList <| declarations.filterMap fun
    | .column api sql => some (api, ⟨table, sql⟩)
    | _ => none

def declaredRelations (declarations : List Declaration) : NameMap Relation :=
  NameMap.ofList <| declarations.filterMap fun
    | .relation relation => some (relation.name, relation)
    | _ => none

def declaredAggregates (declarations : List Declaration) : List (Text × Text) :=
  declarations.filterMap fun
    | .aggregate label api => some (label, api)
    | _ => none

def aggregateFault? (table : Text) (columns : NameMap Column) :
    Text × Text → Option SchemaError := fun (label, api) =>
  if columns.contains api then none else some (.aggregate label table api)

/-- The entity's side of a join is looked at before the relation's. -/
def joinFault? (table : Text) (columns : NameMap Column) (relation : Relation) :
    Option SchemaError :=
  relation.join.bind fun join =>
    if !columns.contains join.own then some (.join relation.name join.own table)
    else if !relation.columns.contains join.foreign then
      some (.join relation.name join.foreign relation.table)
    else none

/-- The aggregates are looked at first, in order of declaration, then the relations in
order of their names. -/
def build (table : Text) (declarations : List Declaration) : Except SchemaError Schema :=
  let columns := declaredColumns table declarations
  let relations := declaredRelations declarations
  let aggregates := declaredAggregates declarations
  let fault := (aggregates.findSome? (aggregateFault? table columns)).or
    (relations.entries.findSome? fun (_, relation) => joinFault? table columns relation)
  match fault with
  | some error => .error error
  | none => .ok {
      table, columns, relations
      aggregates := NameMap.ofList <| aggregates.filterMap fun (label, api) =>
        (columns.get? api).map (label, ·) }

end Schema
end RestQuery
