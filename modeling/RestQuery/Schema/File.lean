import RestQuery.Schema.Basic
import RestQuery.Toml.Document

/-! Registries: schemas by the names of their entities, and the definitions that a schema
file holds. -/
namespace RestQuery

abbrev Registry := NameMap Schema

structure RelationDefinition where
  table : Text
  columns : NameMap Text
  join : Option Join

/-- An entity as a file defines it. Without a table of its own it is named like its table. -/
structure EntityDefinition where
  table : Option Text
  columns : NameMap Text
  relations : NameMap RelationDefinition
  aggregates : NameMap Text

namespace RelationDefinition

def toRelation (definition : RelationDefinition) (name : Text) : Relation where
  name
  table := definition.table
  columns := definition.columns.mapValues fun _ sql => ⟨name, sql⟩
  join := definition.join

end RelationDefinition

namespace EntityDefinition

def declarations (definition : EntityDefinition) : List Declaration :=
  definition.columns.entries.map (fun (api, sql) => .column api sql) ++
    definition.relations.entries.map (fun (name, relation) =>
      .relation (relation.toRelation name)) ++
    definition.aggregates.entries.map fun (label, api) => .aggregate label api

def build (definition : EntityDefinition) (name : Text) : Except SchemaError Schema :=
  Schema.build (definition.table.getD name) definition.declarations

end EntityDefinition

namespace Registry

/-- The registry of all entities, or the error of the first that cannot be built. -/
def ofDefinitions (definitions : NameMap EntityDefinition) : Except SchemaError Registry :=
  definitions.entries.foldlM (fun registry (name, definition) =>
    (definition.build name).map fun schema => NameMap.insert registry name schema) NameMap.empty

end Registry

/-! Schema files: definitions of entities as TOML. Unknown keys are passed over. Where a
definition is expected an array may give its fields in their order, and a date or time
reads as a table of one entry, which holds its text. -/

namespace SchemaFile

open Toml (Value)

def momentKey : Text := "$__toml_private_datetime".toList

def entries? : Value → Option (List (Text × Value))
  | .table entries => some entries
  | .moment text => some [(momentKey, .string text)]
  | _ => none

def text? : Value → Option Text
  | .string text => some text
  | _ => none

def map? (read : Value → Option α) (value : Value) : Option (NameMap α) := do
  let named ← (← entries? value).mapM fun (name, value) => (read value).map (name, ·)
  return .ofList named

def optional? (read : Value → Option α) : Option Value → Option (Option α)
  | none => some none
  | some value => (read value).map some

def fieldMap? (read : Value → Option α) (field : Option Value) : Option (NameMap α) :=
  (optional? (map? read) field).map (·.getD .empty)

def join? : Value → Option Join
  | .array (own :: foreign :: _) => return ⟨← text? own, ← text? foreign⟩
  | .array _ => none
  | value => do
    let fields ← entries? value
    return ⟨← text? (← Entries.find? "local".toList fields),
      ← text? (← Entries.find? "foreign".toList fields)⟩

/-- Given as an array, a relation has all of its fields. -/
def relation? : Value → Option RelationDefinition
  | .array (table :: columns :: join :: _) =>
    return ⟨← text? table, ← map? text? columns, some (← join? join)⟩
  | .array _ => none
  | value => do
    let fields ← entries? value
    return ⟨← text? (← Entries.find? "table".toList fields),
      ← fieldMap? text? (Entries.find? "columns".toList fields),
      ← optional? join? (Entries.find? "join".toList fields)⟩

/-- Given as an array, an entity has at least its table. -/
def entity? : Value → Option EntityDefinition
  | .array [] => none
  | .array (table :: others) =>
    return ⟨some (← text? table), ← fieldMap? text? others[0]?, ← fieldMap? relation? others[1]?,
      ← fieldMap? text? others[2]?⟩
  | value => do
    let fields ← entries? value
    return ⟨← optional? text? (Entries.find? "table".toList fields),
      ← fieldMap? text? (Entries.find? "columns".toList fields),
      ← fieldMap? relation? (Entries.find? "relations".toList fields),
      ← fieldMap? text? (Entries.find? "aggregates".toList fields)⟩

/-- The definitions under `entities`, if the text is a document that holds them. -/
def definitions? (text : Text) : Option (NameMap EntityDefinition) := do
  let fields ← entries? (← Toml.read? text)
  fieldMap? entity? (Entries.find? "entities".toList fields)

end SchemaFile

/-- Why a schema file gives no registry: it is no file of definitions, or one of them names
what does not exist. -/
inductive SchemaFileError where
  | unreadable
  | schema (error : SchemaError)
  deriving DecidableEq, Repr

def Registry.ofToml (text : Text) : Except SchemaFileError Registry :=
  match SchemaFile.definitions? text with
  | none => .error .unreadable
  | some definitions => (Registry.ofDefinitions definitions).mapError .schema

end RestQuery
