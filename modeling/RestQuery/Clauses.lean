import RestQuery.Number.Binary64
import RestQuery.Params
import RestQuery.Rejection
import RestQuery.Schema.Basic
import RestQuery.Text.WhiteSpace
import RestQuery.Token

/-! Orders: the columns by which rows are sorted. An item is a dotted path with a minus sign
before it for descending order, or with a last segment `asc` or `desc`. -/
namespace RestQuery

inductive Direction where
  | asc | desc
  deriving DecidableEq, Repr

def Direction.name : Direction → Text
  | asc => "asc".toList
  | desc => "desc".toList

def Direction.toSql : Direction → Text
  | asc => "ASC".toList
  | desc => "DESC".toList

structure OrderTerm where
  column : Column
  direction : Direction
  deriving DecidableEq, Repr

namespace OrderTerm

open Token

def toSql (term : OrderTerm) : Text := term.column.toText ++ ' ' :: term.direction.toSql

/-- The direction and the path of an item. A direction at the end of a path is looked for
only where no minus sign gives it. -/
def shape? (item : Text) : Option (Direction × Path) :=
  match item with
  | '-' :: rest => (Path.read? rest).map (.desc, ·)
  | item => (Path.read? item).map fun path =>
    if path.getLast? = some Direction.asc.name then (.asc, path.dropLast)
    else if path.getLast? = some Direction.desc.name then (.desc, path.dropLast)
    else (.asc, path)

/-- Only the last segment names a column; those before it say nothing. -/
def ofItem (schema : Schema) (item : Text) : Except Rejection OrderTerm :=
  match shape? item with
  | none => .error (.malformed item)
  | some (direction, path) =>
    match path.getLast? with
    | none => .error (.malformed item)
    | some name =>
      match schema.column? name with
      | none => .error (.unknown name)
      | some column => .ok ⟨column, direction⟩

def compile (schema : Schema) (text : Text) : Report (List OrderTerm) :=
  .present ((items text).map fun item => .ofExcept (ofItem schema item))

end OrderTerm

/-! Counts: the aggregates that a schema registers under labels. -/

structure Count where
  label : Text
  column : Column
  deriving DecidableEq, Repr

namespace Count

def function : Text := "COUNT".toList

def toSql (count : Count) : Text :=
  function ++ '(' :: (count.column.toText ++ ") AS ".toList ++ count.label)

def ofLabel (schema : Schema) (label : Text) : Except Rejection Count :=
  match schema.aggregate? label with
  | none => .error (.unknown label)
  | some column => .ok ⟨label, column⟩

def compile (schema : Schema) (text : Text) : Report (List Count) :=
  .present ((Token.items text).map fun label => .ofExcept (ofLabel schema label))

end Count
end RestQuery

/-! Limits and offsets: whole numbers of at most 64 bits, also when written with a fraction
of zeros or a power of ten. -/
namespace RestQuery.Page

/-- One past the greatest limit. -/
def bound : Nat := 18446744073709551616

def below? (limit : Nat) (n : Nat) : Option Nat := if n < limit then some n else none

def ofInteger? (text : Text) : Option Nat := (Number.readUnsigned? text).bind (below? bound)

def ofFloat? (text : Text) : Option Nat :=
  (Number.Binary64.read? text).bind fun value => value.toNat?.bind (below? bound)

/-- A list of texts is no number, even with one element. -/
def compile : Param → Report (Option Nat)
  | .single text =>
    match (ofInteger? text.trim).or (ofFloat? text.trim) with
    | some n => ⟨some n, []⟩
    | none => ⟨none, [.invalid text.trim]⟩
  | .list texts => ⟨none, [.invalid ([','].intercalate texts)]⟩

end RestQuery.Page
