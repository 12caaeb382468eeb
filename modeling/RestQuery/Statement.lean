import RestQuery.Descriptor

/-! Statements: the SELECT that answers a descriptor, as clauses. A relation is joined when
the descriptor names it and the schema says how. -/
namespace RestQuery

inductive SelectItem where
  | column (column : Column)
  | count (count : Count)
  /-- All columns of the table or relation with the name. -/
  | allOf (name : Text)
  /-- All columns of the only table. -/
  | everything
  deriving DecidableEq, Repr

/-- A table joined under a relation's name where two columns are equal. -/
structure JoinClause where
  table : Text
  name : Text
  foreign : Column
  own : Column
  deriving DecidableEq, Repr

structure Statement where
  items : List SelectItem
  table : Text
  joins : List JoinClause
  condition : Option Condition
  groups : List SelectItem
  order : List OrderTerm
  limit : Option Nat
  offset : Option Nat
  deriving Repr

namespace SelectItem

def toSql : SelectItem → Text
  | .column named => named.toText
  | .count counted => counted.toSql
  | .allOf name => name ++ ".*".toList
  | .everything => ['*']

/-- Whether the item reads as all columns of something, so that rows are not grouped by it. -/
def isOpen (item : SelectItem) : Bool := ".*".toList.isSuffixOf item.toSql

end SelectItem

namespace Statement

def joinClause? (schema : Schema) (name : Text) : Option JoinClause := do
  let relation ← schema.relation? name
  let join ← relation.join
  let own ← schema.column? join.own
  let foreign ← relation.column? join.foreign
  return ⟨relation.table, relation.name, foreign, own⟩

/-- The items that show an extent of a relation, which is left out if it cannot be joined. -/
def extentItems (schema : Schema) : Text × Extent → List SelectItem := fun (name, extent) =>
  match schema.relation? name, joinClause? schema name with
  | some relation, some _ =>
    match extent with
    | .whole => [.allOf relation.name]
    | .part projection => (projection.columns.filterMap relation.column?).map .column
  | _, _ => []

def projectionItems (schema : Schema) (projection : Projection) : List SelectItem :=
  (projection.columns.filterMap schema.column?).map .column ++
    projection.relations.flatMap (extentItems schema)

/-- The relations that the projection or the condition names, in ascending order. -/
def joinedNames (schema : Schema) (descriptor : Descriptor) : List Text :=
  let shown := descriptor.projection.elim [] fun projection => projection.relations.map (·.1)
  let compared := descriptor.condition.elim [] fun condition =>
    (condition.columns.map (·.table)).filter (· ≠ schema.table)
  Names.union (Names.union [] shown) compared

def ofDescriptor (schema : Schema) (descriptor : Descriptor) : Statement :=
  let shown := descriptor.projection.elim [] (projectionItems schema)
  let joins := (joinedNames schema descriptor).filterMap (joinClause? schema)
  let items := shown ++ descriptor.counts.map .count
  { items :=
      if items ≠ [] then items
      else if joins = [] then [.everything]
      else [.allOf schema.table]
    table := schema.table
    joins
    condition := descriptor.condition
    groups := if descriptor.counts = [] then [] else shown.filter fun item => !item.isOpen
    order := descriptor.order
    limit := descriptor.limit
    offset := descriptor.offset }

end Statement

/-! The text of statements. -/

def JoinClause.toSql (clause : JoinClause) : Text :=
  "LEFT JOIN ".toList ++ clause.table ++ " AS ".toList ++ clause.name ++ " ON ".toList ++
    clause.foreign.toText ++ " = ".toList ++ clause.own.toText

namespace Statement

def listClause (keyword : String) (parts : List Text) : Text :=
  if parts.isEmpty then [] else keyword.toList ++ ", ".toList.intercalate parts

def optionalClause (keyword : String) (argument : Option Text) : Text :=
  argument.elim [] (keyword.toList ++ ·)

def toSql (statement : Statement) : Text :=
  listClause "SELECT " (statement.items.map SelectItem.toSql) ++
    " FROM ".toList ++ statement.table ++
    statement.joins.flatMap (fun clause => ' ' :: clause.toSql) ++
    optionalClause " WHERE " (statement.condition.map Condition.toSql) ++
    listClause " GROUP BY " (statement.groups.map SelectItem.toSql) ++
    listClause " ORDER BY " (statement.order.map OrderTerm.toSql) ++
    optionalClause " LIMIT " (statement.limit.map Number.ofNat) ++
    optionalClause " OFFSET " (statement.offset.map Number.ofNat)

end Statement

def Descriptor.toSql (schema : Schema) (descriptor : Descriptor) : Text :=
  (Statement.ofDescriptor schema descriptor).toSql

end RestQuery
