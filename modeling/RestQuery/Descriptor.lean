import RestQuery.Clauses
import RestQuery.Filter
import RestQuery.Json
import RestQuery.Params
import RestQuery.Projection

/-! Descriptors: all that a query asks for, with every name resolved. -/
namespace RestQuery

structure Descriptor where
  projection : Option Projection
  condition : Option Condition
  order : List OrderTerm
  limit : Option Nat
  offset : Option Nat
  counts : List Count
  deriving Repr

namespace Descriptor

def empty : Descriptor := ⟨none, none, [], none, none, []⟩

/-- Whether nothing is asked for. A projection that names nothing is still one. -/
def isEmpty (descriptor : Descriptor) : Bool :=
  descriptor.projection.isNone && descriptor.condition.isNone && descriptor.order.isEmpty &&
    descriptor.limit.isNone && descriptor.offset.isNone && descriptor.counts.isEmpty

end Descriptor
end RestQuery

/-! Descriptors compiled from query parameters. Every parameter is compiled on its own, and
each may be one text or several that are taken together. -/
namespace RestQuery.Descriptor

/-- All fragments name parts of one projection; one that names nothing is none. -/
def compileProjection (schema : Schema) (param : Param) : Report (Option Projection) :=
  (Report.all (param.fragments.map (Projection.compile schema))).map fun projections =>
    let merged := Projection.mergeAll projections
    if merged.isEmpty then none else some merged

/-- The conditions of several filters hold together. -/
def conjunction? : List Condition → Option Condition
  | [condition] => some condition
  | conditions => Condition.combine? .and conditions

def compileCondition (schema : Schema) (param : Param) : Report (Option Condition) :=
  (Report.present (param.fragments.map (Condition.compile schema))).map conjunction?

def compileOrder (schema : Schema) (param : Param) : Report (List OrderTerm) :=
  (Report.all (param.fragments.map (OrderTerm.compile schema))).map List.flatten

def compileCounts (schema : Schema) (param : Param) : Report (List Count) :=
  (Report.all (param.fragments.map (Count.compile schema))).map List.flatten

/-- What is compiled from a key, or `absent` without it. -/
def ofKey (params : Params) (key : String) (absent : α) (compile : Param → Report α) : Report α :=
  match NameMap.get? params key.toList with
  | none => .accept absent
  | some param => compile param

def compile (schema : Schema) (params : Params) : Report Descriptor :=
  let projection := ofKey params "select" none (compileProjection schema)
  let condition := ofKey params "filter" none (compileCondition schema)
  let order := ofKey params "sort" [] (compileOrder schema)
  let limit := ofKey params "limit" none Page.compile
  let offset := ofKey params "offset" none Page.compile
  let counts := ofKey params "aggregate" [] (compileCounts schema)
  ⟨⟨projection.result, condition.result, order.result, limit.result, offset.result, counts.result⟩,
    projection.rejections ++ condition.rejections ++ order.rejections ++ limit.rejections ++
      offset.rejections ++ counts.rejections⟩

def ofQuery (schema : Schema) (raw : Text) : Report Descriptor := compile schema (Params.parse raw)

end RestQuery.Descriptor

/-! Descriptors as JSON. What a query does not ask for is left out. -/
namespace RestQuery

open Json

def Literal.toJson : Literal → Json
  | .null => .null
  | .bool value => .bool value
  | .int value => .int value
  | .float value => .float value
  | .string value => .string value

def Operand.toJson : Operand → Json
  | .single literal => literal.toJson
  | .list literals => .array (literals.map Literal.toJson)

def Column.toJson (column : Column) : Json :=
  .object [("table".toList, .string column.table), ("column".toList, .string column.name)]

namespace Condition

mutual

def toJson : Condition → Json
  | comparison column operator operand =>
    .object [("kind".toList, .string "comparison".toList), ("column".toList, column.toJson),
      ("op".toList, .string operator.name), ("value".toList, operand.toJson)]
  | logical connective children =>
    .object [("kind".toList, .string "logical".toList), ("op".toList, .string connective.name),
      ("children".toList, .array (allToJson children))]

def allToJson : List Condition → List Json
  | [] => []
  | child :: children => toJson child :: allToJson children

end

end Condition

namespace Projection

def columnsToJson (columns : List Text) : Json := .array (columns.map .string)

mutual

/-- A relation's columns are listed even if there are none. -/
def extentToJson : Extent → Json
  | .whole => .bool true
  | .part (node columns relations) =>
    .object (("columns".toList, columnsToJson columns) ::
      unlessEmpty "relations" relations (.object (relationsToJson relations)))

def relationsToJson : List (Text × Extent) → List (Text × Json)
  | [] => []
  | (name, extent) :: rest => (name, extentToJson extent) :: relationsToJson rest

end

def toJson (projection : Projection) : Json :=
  .object (unlessEmpty "columns" projection.columns (columnsToJson projection.columns) ++
    unlessEmpty "relations" projection.relations
      (.object (relationsToJson projection.relations)))

end Projection

def OrderTerm.toJson (term : OrderTerm) : Json :=
  .object [("column".toList, term.column.toJson),
    ("direction".toList, .string term.direction.name)]

def Count.toJson (count : Count) : Json :=
  .object [("alias".toList, .string count.label), ("func".toList, .string Count.function),
    ("column".toList, count.column.toJson)]

namespace Descriptor

def toJson (descriptor : Descriptor) : Json :=
  .object (
    optional "select" (descriptor.projection.map Projection.toJson) ++
    optional "filter" (descriptor.condition.map Condition.toJson) ++
    unlessEmpty "sort" descriptor.order
      (.array (descriptor.order.map OrderTerm.toJson)) ++
    optional "limit" (descriptor.limit.map fun n => .int n) ++
    optional "offset" (descriptor.offset.map fun n => .int n) ++
    unlessEmpty "aggregates" descriptor.counts
      (.array (descriptor.counts.map Count.toJson)))

end Descriptor
end RestQuery
