import RestQuery.Number.Layout

/-! JSON values and their two written forms: compact, and indented by two spaces a level. -/
namespace RestQuery

inductive Json where
  | null
  | bool (value : Bool)
  | int (value : Int)
  | float (value : Number.Binary64)
  | string (value : Text)
  | array (elements : List Json)
  | object (members : List (Text × Json))
  deriving Repr

namespace Json

/-- Numbers always have a fraction or a power of ten, which is written from sixteen digits
before the point or five zeros after it on. A value that is not finite is null. -/
def layout : Number.Layout where
  tie := .even
  positional := fun lead => -5 ≤ lead ∧ lead < 16
  keepsFraction := true
  infinite := fun _ => "null".toList
  nan := "null".toList

def optional (name : String) (value : Option Json) : List (Text × Json) :=
  value.toList.map fun json => (name.toList, json)

def unlessEmpty (name : String) (parts : List α) (value : Json) : List (Text × Json) :=
  if parts.isEmpty then [] else [(name.toList, value)]

def escape (c : Char) : Text :=
  if c = '"' then ['\\', '"']
  else if c = '\\' then ['\\', '\\']
  else if c = '\n' then ['\\', 'n']
  else if c = '\r' then ['\\', 'r']
  else if c = '\t' then ['\\', 't']
  else if c.toNat = 8 then ['\\', 'b']
  else if c.toNat = 12 then ['\\', 'f']
  else if c.toNat < 32 then
    ['\\', 'u', '0', '0', (c.toNat / 16).digitChar, (c.toNat % 16).digitChar]
  else [c]

def quoted (text : Text) : Text := '"' :: (text.flatMap escape ++ ['"'])

mutual

def compact : Json → Text
  | null => "null".toList
  | bool true => "true".toList
  | bool false => "false".toList
  | int value => Number.ofInt value
  | float value => layout.write value
  | string value => quoted value
  | array elements => '[' :: ([','].intercalate (compactElements elements) ++ [']'])
  | object members => '{' :: ([','].intercalate (compactMembers members) ++ ['}'])

def compactElements : List Json → List Text
  | [] => []
  | element :: elements => compact element :: compactElements elements

def compactMembers : List (Text × Json) → List Text
  | [] => []
  | (name, value) :: members => (quoted name ++ ':' :: compact value) :: compactMembers members

end

def indentation (level : Nat) : Text := List.replicate (2 * level) ' '

def block (left right : Char) (level : Nat) : List Text → Text
  | [] => [left, right]
  | parts =>
    let line := '\n' :: indentation (level + 1)
    left :: (line ++ (',' :: line).intercalate parts ++ '\n' :: (indentation level ++ [right]))

mutual

def pretty (level : Nat) : Json → Text
  | null => "null".toList
  | bool true => "true".toList
  | bool false => "false".toList
  | int value => Number.ofInt value
  | float value => layout.write value
  | string value => quoted value
  | array elements => block '[' ']' level (prettyElements (level + 1) elements)
  | object members => block '{' '}' level (prettyMembers (level + 1) members)

def prettyElements (level : Nat) : List Json → List Text
  | [] => []
  | element :: elements => pretty level element :: prettyElements level elements

def prettyMembers (level : Nat) : List (Text × Json) → List Text
  | [] => []
  | (name, value) :: members =>
    (quoted name ++ ':' :: ' ' :: pretty level value) :: prettyMembers level members

end

end Json
end RestQuery
