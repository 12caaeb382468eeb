import RestQuery.Number.Layout
import RestQuery.Text.WhiteSpace

/-! Literals: the values a filter compares columns with, and their spelling in a statement. -/
namespace RestQuery

inductive Literal where
  | null
  | bool (value : Bool)
  | int (value : Int)
  | float (value : Number.Binary64)
  | string (value : Text)
  deriving DecidableEq, Repr

namespace Literal

/-- Text between single quotes, where a quote inside is written twice. -/
def quoted (text : Text) : Text :=
  '\'' :: (text.flatMap fun c => if c = '\'' then ['\'', '\''] else [c]) ++ ['\'']

/-- Numbers in a statement never carry a power of ten, and a whole one has no fraction. -/
def layout : Number.Layout where
  tie := .up
  positional := fun _ => true
  keepsFraction := false
  infinite := fun negative => Number.Layout.signed negative "inf".toList
  nan := "NaN".toList

def toSql : Literal → Text
  | .null => "NULL".toList
  | .bool true => "true".toList
  | .bool false => "false".toList
  | .int value => Number.ofInt value
  | .float value => layout.write value
  | .string value => quoted value

@[simp] theorem toSql_int (value : Int) : (int value).toSql = Number.ofInt value := rfl

@[simp] theorem toSql_string (value : Text) : (string value).toSql = quoted value := rfl

example : (string "it's".toList).toSql = "'it''s'".toList := by decide

end Literal
end RestQuery

/-! Literals read from the tokens of a value list. Every token is a literal: what is no
keyword, number or quoted text stands for itself. -/
namespace RestQuery.Literal

def ofInteger? (token : Text) : Option Literal :=
  (Number.readInt? token).bind fun n => if Number.InRange n then some (.int n) else none

def ofFloat? (token : Text) : Option Literal :=
  (Number.Binary64.read? token).bind fun value =>
    if value.isFinite then some (.float value) else none

/-- What stands between two quotes that start and end the text. -/
def unquoted? (quote : Char) : Text → Option Text
  | [] => none
  | c :: rest => if c = quote ∧ rest.getLast? = some quote then some rest.dropLast else none

def keyword? (token : Text) : Option Literal :=
  if token = "true".toList then some (.bool true)
  else if token = "false".toList then some (.bool false)
  else if token = "null".toList then some .null
  else none

def ofTrimmed (token : Text) : Literal :=
  keyword? token
    |>.or (ofInteger? token)
    |>.or (ofFloat? token)
    |>.or ((unquoted? '\'' token).map .string)
    |>.or ((unquoted? '"' token).map .string)
    |>.getD (.string token)

def ofToken (token : Text) : Literal := ofTrimmed token.trim

theorem unquoted?_eq_some_iff {text inner : Text} : unquoted? quote text = some inner ↔
    text = quote :: (inner ++ [quote]) := by
  cases text with
  | nil => simp [unquoted?]
  | cons c rest =>
    simp only [unquoted?]
    constructor
    · intro h
      split at h
      · next both =>
        simp only [Option.some.injEq] at h
        obtain ⟨before, rfl⟩ := List.getLast?_eq_some_iff.mp both.2
        simp [← h, both.1]
      · simp at h
    · intro h
      simp only [List.cons.injEq] at h
      simp [h.1, h.2]

example : ofToken " 'a,b' ".toList = .string "a,b".toList := by decide +kernel
example : ofToken "'".toList = .string "'".toList := by decide +kernel
example : ofToken "9223372036854775808".toList = .float (.finite false 4503599627370496 11) := by
  decide +kernel

end RestQuery.Literal
