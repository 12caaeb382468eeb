import RestQuery.Literal
import RestQuery.Rejection
import RestQuery.Schema.Basic
import RestQuery.Text.Basic
import RestQuery.Token

/-! Comparison operators and the combinators that join conditions, with their names in a
query and in a statement. -/
namespace RestQuery

inductive Operator where
  | eq | ne | gt | gte | lt | lte | oneOf | noneOf | is | like | ilike
  deriving DecidableEq, Repr

namespace Operator

def all : List Operator := [eq, ne, gt, gte, lt, lte, oneOf, noneOf, is, like, ilike]

def name : Operator → Text
  | eq => "eq".toList
  | ne => "ne".toList
  | gt => "gt".toList
  | gte => "gte".toList
  | lt => "lt".toList
  | lte => "lte".toList
  | oneOf => "in".toList
  | noneOf => "nin".toList
  | is => "is".toList
  | like => "like".toList
  | ilike => "ilike".toList

def toSql : Operator → Text
  | eq => "=".toList
  | ne => "<>".toList
  | gt => ">".toList
  | gte => ">=".toList
  | lt => "<".toList
  | lte => "<=".toList
  | oneOf => "IN".toList
  | noneOf => "NOT IN".toList
  | is => "IS".toList
  | like => "LIKE".toList
  | ilike => "ILIKE".toList

def takesList : Operator → Bool
  | oneOf | noneOf => true
  | _ => false

def ofName? (name : Text) : Option Operator := all.find? fun operator => operator.name == name

theorem ofName?_name (operator : Operator) : ofName? operator.name = some operator := by
  cases operator <;> decide

end Operator

inductive Connective where
  | and | or
  deriving DecidableEq, Repr

namespace Connective

def name : Connective → Text
  | and => "and".toList
  | or => "or".toList

def toSql : Connective → Text
  | and => "AND".toList
  | or => "OR".toList

def ofName? (name : Text) : Option Connective :=
  if name = Connective.and.name then some and
  else if name = Connective.or.name then some or
  else none

theorem ofName?_name (connective : Connective) : ofName? connective.name = some connective := by
  cases connective <;> decide

end Connective

/-! Conditions: comparisons of columns with literals, joined by combinators. -/

inductive Operand where
  | single (literal : Literal)
  | list (literals : List Literal)
  deriving DecidableEq, Repr

def Operand.literals : Operand → List Literal
  | single literal => [literal]
  | list literals => literals

inductive Condition where
  | comparison (column : Column) (operator : Operator) (operand : Operand)
  | logical (connective : Connective) (children : List Condition)
  deriving Repr

namespace Condition

/-- Induction on the tree, where a combinator has what all its children have. -/
@[elab_as_elim]
theorem induct {motive : Condition → Prop}
    (comparison : ∀ column operator operand, motive (comparison column operator operand))
    (logical : ∀ connective children, (∀ child ∈ children, motive child) →
      motive (logical connective children)) : ∀ condition, motive condition
  | .comparison column operator operand => comparison column operator operand
  | .logical connective children =>
    logical connective children fun child _ => induct comparison logical child

def combine? (connective : Connective) : List Condition → Option Condition
  | [] => none
  | children => some (logical connective children)

mutual

def columns : Condition → List Column
  | comparison column _ _ => [column]
  | logical _ children => allColumns children

def allColumns : List Condition → List Column
  | [] => []
  | child :: children => columns child ++ allColumns children

end

mutual

def toText : Condition → Text
  | comparison column operator operand =>
    column.toText ++ '.' :: (operator.name ++ '(' ::
      ([','].intercalate (operand.literals.map Literal.toSql) ++ [')']))
  | logical connective children =>
    connective.name ++ '(' :: ([','].intercalate (allTexts children) ++ [')'])

def allTexts : List Condition → List Text
  | [] => []
  | child :: children => toText child :: allTexts children

end

/-- Whether a condition needs parentheses inside another one. -/
def isGroup : Condition → Bool
  | comparison .. => false
  | logical _ children => 1 < children.length

def comparisonToSql (column : Column) (operator : Operator) (operand : Operand) : Text :=
  column.toText ++ ' ' :: (operator.toSql ++ ' ' :: match operand with
    | .single literal => literal.toSql
    | .list literals => '(' :: (", ".toList.intercalate (literals.map Literal.toSql) ++ [')']))

mutual

/-- A condition as a statement writes it. Groups inside groups stand in parentheses. -/
def toSql : Condition → Text
  | comparison column operator operand => comparisonToSql column operator operand
  | logical connective children =>
    (' ' :: (connective.toSql ++ [' '])).intercalate (allToSql children)

def allToSql : List Condition → List Text
  | [] => []
  | child :: children =>
    (if child.isGroup then '(' :: (toSql child ++ [')']) else toSql child) :: allToSql children

end

theorem allColumns_eq (children : List Condition) :
    allColumns children = children.flatMap columns := by
  induction children with
  | nil => rfl
  | cons child children ih => simp [allColumns, ih]

theorem allTexts_eq (children : List Condition) : allTexts children = children.map toText := by
  induction children with
  | nil => rfl
  | cons child children ih => simp [allTexts, ih]

theorem allToSql_eq (children : List Condition) : allToSql children = children.map fun child =>
    if child.isGroup then '(' :: (toSql child ++ [')']) else toSql child := by
  induction children with
  | nil => rfl
  | cons child children ih => simp [allToSql, ih]

end Condition
end RestQuery

/-! Conditions compiled from filters: `and(..)`, `or(..)` and `column.operator(values)`.
What resolves to nothing is dropped from the combinator around it, and a combinator left
with nothing is dropped in turn. -/
namespace RestQuery.Condition

open Token

/-- A column of the entity with the last name of the path or, if there is none, a column of
the relation named before it. -/
def resolve (schema : Schema) (path : Path) : Except Rejection Column :=
  let found? := match path with
    | [name] => some (schema.column? name)
    | [relation, name] =>
      some ((schema.column? name).or ((schema.relation? relation).bind (·.column? name)))
    | _ => none
  match found? with
  | none => .error (.malformed path.toText)
  | some none => .error (.unknown path.toText)
  | some (some column) => .ok column

def readValues (args : Text) : List Literal := (segments args).map Literal.ofToken

/-- The first value, or all of them for an operator on lists. -/
def operand (operator : Operator) (values : List Literal) : Operand :=
  if operator.takesList then .list values else .single (values.headD .null)

def compileComparison (schema : Schema) (path : Path) (operator args : Text) :
    Except Rejection Condition :=
  match resolve schema path with
  | .error rejection => .error rejection
  | .ok column =>
    match Operator.ofName? operator with
    | none => .error (.unsupported operator)
    | some operator => .ok (comparison column operator (operand operator (readValues args)))

def greatestDepth : Nat := 64

/-- Compiles a filter around which `levels - 1` further combinators may still open. -/
def compileWithin (schema : Schema) : Nat → Text → Report (Option Condition)
  | 0, text => ⟨none, [.malformed text.trim]⟩
  | levels + 1, text =>
    let token := text.trim
    match Call.read? token with
    | none => ⟨none, [.malformed token]⟩
    | some call =>
      match call.path with
      | [name] =>
        match Connective.ofName? name, items call.args with
        | some connective, item :: others =>
          (Report.present ((item :: others).map (compileWithin schema levels))).map
            (combine? connective)
        | _, _ => ⟨none, [.malformed token]⟩
      | path =>
        .ofExcept (compileComparison schema path.dropLast (path.getLastD []) call.args)

def compile (schema : Schema) (text : Text) : Report (Option Condition) :=
  compileWithin schema (greatestDepth + 1) text

end RestQuery.Condition
