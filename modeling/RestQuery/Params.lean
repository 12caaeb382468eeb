import RestQuery.Names
import RestQuery.Text.Basic

/-! Query parameters: under each key one text or a list of texts. -/
namespace RestQuery

/-- What a key holds. A list may have any length, and one of length one is not a single text. -/
inductive Param where
  | single (text : Text)
  | list (texts : List Text)
  deriving DecidableEq, Repr

namespace Param

def fragments : Param → List Text
  | single text => [text]
  | list texts => texts

/-- One more text; whatever was there becomes a list. -/
def push (param : Param) (text : Text) : Param := .list (param.fragments ++ [text])

end Param

abbrev Params := NameMap Param

namespace Params

/-- Adds a text under a key: alone if the key is new. -/
def push (params : Params) (key text : Text) : Params :=
  NameMap.alter params key fun
    | none => .single text
    | some param => param.push text

/-- Adds a text under a key, as part of a list also if the key is new. -/
def pushListed (params : Params) (key text : Text) : Params :=
  NameMap.alter params key fun
    | none => .list [text]
    | some param => param.push text

end Params
end RestQuery

/-! Query strings: `key=value` pairs joined by ampersands, with spaces as plus signs and
bytes as percent signs with two hexadecimal digits. A key that ends in an index in square
brackets, or in empty ones, names a list. -/
namespace RestQuery.Params

def hexDigit? (byte : UInt8) : Option UInt8 :=
  if 0x30 ≤ byte ∧ byte ≤ 0x39 then some (byte - 0x30)
  else if 0x41 ≤ byte ∧ byte ≤ 0x46 then some (byte - 0x37)
  else if 0x61 ≤ byte ∧ byte ≤ 0x66 then some (byte - 0x57)
  else none

/-- Replaces percent signs with two digits by the byte they write; others stand. -/
def percentDecode : List UInt8 → List UInt8
  | [] => []
  | 0x25 :: high :: low :: rest =>
    match hexDigit? high, hexDigit? low with
    | some h, some l => (16 * h + l) :: percentDecode rest
    | _, _ => 0x25 :: percentDecode (high :: low :: rest)
  | byte :: rest => byte :: percentDecode rest

def decodeComponent (text : Text) : Text :=
  Text.ofUtf8 (percentDecode (Text.toUtf8 (text.map fun c => if c = '+' then ' ' else c)))

def decodePair (piece : Text) : Text × Text :=
  let (key, value) := Text.cutFirst '=' piece
  (decodeComponent key, decodeComponent (value.getD []))

/-- The decoded pairs in order; empty pieces between ampersands are no pairs. -/
def decodePairs (text : Text) : List (Text × Text) :=
  ((text.splitOn '&').filter (· ≠ [])).map decodePair

/-- The list that a key such as `key[]` or `key[3]` names. -/
def listKey? (key : Text) : Option Text :=
  match Text.cutFirst '[' key with
  | (base, some rest) =>
    if base ≠ [] ∧ rest.getLast? = some ']' ∧ rest.dropLast.all Char.isDigit then some base
    else none
  | _ => none

def addPair (params : Params) (pair : Text × Text) : Params :=
  match listKey? pair.1 with
  | some base => params.pushListed base pair.2
  | none => params.push pair.1 pair.2

/-- The parameters of a query string, with or without a leading question mark. -/
def parse (raw : Text) : Params :=
  let text := match raw with
    | '?' :: rest => rest
    | text => text
  (decodePairs text).foldl addPair NameMap.empty

example : decodePair "a%5b%5D=b+c%zz".toList = ("a[]".toList, "b c%zz".toList) := by decide
example : listKey? "a[10]".toList = some "a".toList := by decide
example : listKey? "[1]".toList = none := by decide

end RestQuery.Params
