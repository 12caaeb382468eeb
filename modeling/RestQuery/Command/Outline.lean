import RestQuery.Descriptor
import RestQuery.Filter
import RestQuery.Schema.File
import RestQuery.Statement

/-! Descriptors, compilations and registries for reading, line by line. -/
namespace RestQuery.Command

def indent (depth : Nat) (text : Text) : Text := List.replicate (2 * depth) ' ' ++ text

def listed (texts : List Text) : Text := ", ".toList.intercalate texts

def bullet (text : Text) : Text := indent 2 ("• ".toList ++ text)

def projectionLines (projection : Projection) : List Text :=
  projection.columns.map bullet ++
    projection.relations.map fun (name, extent) => bullet <| name ++ match extent with
      | .whole => "(*)".toList
      | .part named => '(' :: (listed named.columns ++ [')'])

def operandText : Operand → Text
  | .single literal => literal.toSql
  | .list literals => '(' :: (listed (literals.map Literal.toSql) ++ [')'])

mutual

/-- A condition with what it combines on deeper lines below it. -/
def conditionLines (depth : Nat) : Condition → List Text
  | .comparison column operator operand =>
    [indent depth (column.toText ++ ' ' :: (operator.name ++ ' ' :: operandText operand))]
  | .logical connective children =>
    indent depth connective.toSql :: allConditionLines (depth + 1) children

def allConditionLines (depth : Nat) : List Condition → List Text
  | [] => []
  | child :: children => conditionLines depth child ++ allConditionLines depth children

end

def orderLine (term : OrderTerm) : Text :=
  let arrow := match term.direction with
    | .asc => '↑'
    | .desc => '↓'
  indent 2 (arrow :: ' ' :: term.column.toText)

def part (title : String) (lines : List Text) : List Text :=
  if lines.isEmpty then [] else indent 1 title.toList :: lines

def number (title : String) (value : Option Nat) : List Text :=
  value.toList.map fun n => indent 1 (title.toList ++ ' ' :: Number.ofNat n)

def descriptorLines (descriptor : Descriptor) : List Text :=
  if descriptor.isEmpty then ["(empty descriptor: no restrictions)".toList]
  else
    (descriptor.projection.elim [] fun projection =>
      indent 1 "Select:".toList :: projectionLines projection) ++
    (descriptor.condition.elim [] fun condition =>
      indent 1 "Filter:".toList :: conditionLines 2 condition) ++
    part "Sort:" (descriptor.order.map orderLine) ++
    number "Limit:" descriptor.limit ++
    number "Offset:" descriptor.offset ++
    part "Aggregates:" (descriptor.counts.map fun count => bullet count.toSql)

def paramLine (key : Text) (param : Param) : Text :=
  indent 1 ("param ".toList ++ key ++ " = ".toList ++ " & ".toList.intercalate param.fragments)

def rejectionLine (rejection : Rejection) : Text :=
  indent 1 ('[' :: (rejection.kind ++ "] ".toList ++ rejection.message))

/-- All that becomes of a query: its parameters, the descriptor, what was dropped and why,
and the statement. -/
def explanationLines (schema : Schema) (query : Text) : List Text :=
  let params := Params.parse query
  let compiled := Descriptor.compile schema params
  ["relq Query Explanation".toList, [], "Query: ".toList ++ query,
    "Table: ".toList ++ schema.table, []] ++
    params.entries.map (fun (key, param) => paramLine key param) ++
    [[], "Descriptor:".toList] ++ descriptorLines compiled.result ++
    (if compiled.rejections.isEmpty then []
      else [] :: "Dropped fragments:".toList :: compiled.rejections.map rejectionLine) ++
    [[], "Generated SQL:".toList, indent 1 (compiled.result.toSql schema)]

def relationLine (name : Text) (relation : Relation) : Text :=
  indent 1 ("relation: ".toList ++ name ++ " → ".toList ++ relation.table ++ " [".toList ++
    listed relation.columns.names ++ [']'])

def schemaLines (name : Text) (schema : Schema) : List Text :=
  [name ++ " (".toList ++ schema.table ++ [')'],
    indent 1 ("columns: ".toList ++ listed schema.columns.names)] ++
  schema.relations.entries.map (fun (name, relation) => relationLine name relation) ++
  if schema.aggregates.isEmpty then []
  else [indent 1 ("aggregates: ".toList ++ listed (schema.aggregates.entries.map
    fun (label, column) => label ++ " = COUNT(".toList ++ column.toText ++ [')']))]

def registryLines (registry : Registry) : List Text :=
  registry.entries.flatMap fun (name, schema) => schemaLines name schema

/-! The reference of what queries may say, as two tables. -/

def padded (width : Nat) (text : Text) : Text := text ++ List.replicate (width - text.length) ' '

def row (width : Nat) (first second third : Text) : Text :=
  padded 10 first ++ ' ' :: (padded width second ++ ' ' :: third)

def rule : Text := List.replicate 80 '─'

def paramRow (name : String) (sample meaning : String) : Text :=
  row 28 name.toList sample.toList meaning.toList

def operatorRow (operator : Operator) : Text :=
  row 10 operator.name operator.toSql
    (if operator.takesList then "all listed".toList else "first only".toList)

def referenceLines : List Text :=
  ["relq Syntax Reference".toList, [],
    paramRow "Param" "Example" "Meaning", rule,
    paramRow "select" "id,department(*)" "Projection; rel(*) = whole relation",
    paramRow "filter" "and(id.gt(3),name.eq(x))" "Predicate tree",
    paramRow "sort" "-id,name.desc" "'-' prefix or .asc/.desc suffix",
    paramRow "limit" "10" "Non-negative integer",
    paramRow "offset" "20" "Non-negative integer",
    paramRow "aggregate" "count" "Named COUNT aggregates",
    [], row 10 "Operator".toList "SQL".toList "Values".toList, rule] ++
  Operator.all.map operatorRow ++
  [[], "Combinators: and(...), or(...). Values: true, false, null, numbers, ".toList ++
    "'quoted', bare.".toList]

end RestQuery.Command
