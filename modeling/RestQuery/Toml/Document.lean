import RestQuery.Names
import RestQuery.Toml.Value

/-! Tables while a document is read. How a table came about decides what may still be
added to it: a header defines a table once, a longer header only implies it, and dotted
keys make tables that only further dotted keys extend. -/
namespace RestQuery.Toml

inductive Origin where
  | defined
  | implied
  | dotted
  deriving DecidableEq, Repr

mutual

inductive Table where
  | mk (origin : Origin) (entries : List (Text × Node))
  deriving Repr

inductive Node where
  | value (value : Value)
  | table (table : Table)
  | tables (elements : List Table)
  deriving Repr

end

namespace Table

def origin : Table → Origin
  | mk origin _ => origin

def entries : Table → List (Text × Node)
  | mk _ entries => entries

def find? (table : Table) (key : Text) : Option Node := Entries.find? key table.entries

def set (table : Table) (key : Text) (node : Node) : Table :=
  mk table.origin (Entries.alter key (fun _ => node) table.entries)

/-- Changes the table that a path of keys leads to. Tables that are not there yet are made;
of an array of tables the last one is meant. Dotted keys do not lead into a table that a
header defines. -/
def alterAt (dotted : Bool) (change : Table → Option Table) : List Text → Table → Option Table
  | [], table => change table
  | key :: path, table => do
    match table.find? key with
    | none =>
      let made ← alterAt dotted change path (mk (if dotted then .dotted else .implied) [])
      return table.set key (.table made)
    | some (.value _) => none
    | some (.table inner) =>
      if dotted ∧ inner.origin = .defined then none
      else return table.set key (.table (← alterAt dotted change path inner))
    | some (.tables elements) =>
      let last ← alterAt dotted change path (← elements.getLast?)
      return table.set key (.tables (elements.dropLast ++ [last]))

structure Pair where
  path : List Text
  key : Text
  value : Value

/-- Adds a value under a key that is not taken. Behind dotted keys the table must be one that
such keys have made. -/
def addPair (table : Table) (pair : Pair) : Option Table :=
  table.alterAt true (fun inner =>
    if (pair.path ≠ [] ∧ inner.origin ≠ .dotted) ∨ (inner.find? pair.key).isSome then none
    else some (inner.set pair.key (.value pair.value))) pair.path

def addPairs (table : Table) (pairs : List Pair) : Option Table := pairs.foldlM addPair table

structure Section where
  path : List Text
  key : Text
  repeats : Bool
  pairs : List Pair

/-- Adds the table of a section: one more element of an array of tables, or a table that is
new or only implied so far. -/
def addSection (table : Table) (part : Section) : Option Table :=
  table.alterAt false (fun parent => do
    if part.repeats then
      let element ← (mk .defined []).addPairs part.pairs
      match parent.find? part.key with
      | none => return parent.set part.key (.tables [element])
      | some (.tables elements) => return parent.set part.key (.tables (elements ++ [element]))
      | some _ => none
    else
      let start ← match parent.find? part.key with
        | none => some []
        | some (.table inner) => if inner.origin = .implied then some inner.entries else none
        | some _ => none
      return parent.set part.key (.table (← (mk .defined start).addPairs part.pairs))) part.path

mutual

def toValue : Table → Value
  | mk _ entries => .table (entryValues entries)

def entryValues : List (Text × Node) → List (Text × Value)
  | [] => []
  | (key, node) :: rest => (key, nodeValue node) :: entryValues rest

def nodeValue : Node → Value
  | .value value => value
  | .table table => toValue table
  | .tables elements => .array (elementValues elements)

def elementValues : List Table → List Value
  | [] => []
  | table :: rest => toValue table :: elementValues rest

end

end Table

/-! Documents: lines of pairs and headers, read and put together into one table. -/

open Reader

def nestingLimit : Nat := 80

def isBare (c : Char) : Bool := c.isAlphanum || c == '_' || c == '-'

def simpleKey : Reader Text := do
  skipBlanks
  let key ← match ← peek with
    | some '"' => singleLine '"' true
    | some '\'' => singleLine '\'' false
    | _ => do
      let bare ← takeWhile isBare
      if bare = [] then failure else pure bare
  skipBlanks
  return key

/-- A dotted key: the keys that lead to a table, and the last one. -/
def key : Reader (List Text × Text) := do
  let first ← simpleKey
  let others ← many do
    if ← skips "." then return some (← simpleKey) else return none
  let keys := first :: others
  if keys.length < nestingLimit then return (keys.dropLast, keys.getLastD first) else failure

def pair (value : Reader Value) : Reader Table.Pair := do
  let (path, last) ← key
  char '='
  skipBlanks
  return ⟨path, last, ← value⟩

/-- The elements of an array after its bracket; a comma may follow the last. -/
def elements (value : Reader Value) : Reader (List Value) := do
  let found ← many do
    skipLines
    if ← skips "]" then return none
    let element ← value
    skipLines
    if (← peek) ≠ some ']' then char ','
    return some element
  return found

/-- The pairs of an inline table after its brace; no comma follows the last. -/
def inlinePairs (value : Reader Value) : Reader (List Table.Pair) := do
  skipBlanks
  if ← skips "\x7d" then return []
  let read := do
    let found ← pair value
    skipBlanks
    return found
  let first ← read
  let others ← many do
    if ← skips "\x7d" then return none
    char ','
    return some (← read)
  return first :: others

def atom : Reader Value := do
  match ← peek with
  | some '"' => .string <$> quoted '"' true
  | some '\'' => .string <$> quoted '\'' false
  | some 't' => if ← skips "true" then return .boolean true else failure
  | some 'f' => if ← skips "false" then return .boolean false else failure
  | _ => do
    match ← optional Moment.moment with
    | some text => return .moment text
    | none => number

def valueWithin : Nat → Reader Value
  | 0 => atom
  | levels + 1 => do
    if ← skips "[" then return .array (← elements (valueWithin levels))
    else if ← skips "\x7b" then
      match (Table.mk .defined []).addPairs (← inlinePairs (valueWithin levels)) with
      | some table => return table.toValue
      | none => failure
    else atom

def value : Reader Value := valueWithin (nestingLimit - 1)

inductive Line where
  | blank
  | header (path : List Text) (key : Text) (repeats : Bool)
  | pair (pair : Table.Pair)

def header : Reader Line := do
  if ← skips "[[" then
    let (path, last) ← key
    char ']'
    char ']'
    return .header path last true
  else
    char '['
    let (path, last) ← key
    char ']'
    return .header path last false

def line : Reader (Option Line) := do
  skipBlanks
  match ← peek with
  | none => return none
  | some '#' | some '\n' | some '\x0D' =>
    lineEnd
    return some .blank
  | some '[' =>
    let found ← header
    lineEnd
    return some found
  | _ =>
    let found ← pair value
    lineEnd
    return some (.pair found)

def sections : List Line → List Table.Pair × List Table.Section
  | [] => ([], [])
  | .blank :: lines => sections lines
  | .pair found :: lines =>
    let (pairs, others) := sections lines
    (found :: pairs, others)
  | .header path key repeats :: lines =>
    let (pairs, others) := sections lines
    ([], ⟨path, key, repeats, pairs⟩ :: others)

/-- The table that a document describes. A byte order mark at its start is dropped. -/
def read? (text : Text) : Option Value := do
  let start := (['\uFEFF'].isPrefixOf? text).getD text
  let (lines, _) ← (many line).run start
  let (pairs, parts) := sections lines
  let root ← (Table.mk .defined []).addPairs pairs
  return (← parts.foldlM Table.addSection root).toValue

end RestQuery.Toml
