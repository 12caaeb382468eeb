import RestQuery.Number.Binary64
import RestQuery.Text.Basic

/-! Readers take something off the front of a text or refuse it. -/
namespace RestQuery.Toml

abbrev Reader := StateT Text Option

namespace Reader

def peek : Reader (Option Char) := do return (← get).head?

def next : Reader Char := fun
  | [] => none
  | c :: rest => some (c, rest)

def char (wanted : Char) : Reader Unit := do
  if (← next) = wanted then return () else failure

def takeWhile (p : Char → Bool) : Reader Text := fun text => some (text.span p)

/-- Takes `lead` off the text if it starts so, and tells whether it did. -/
def skips (lead : String) : Reader Bool := fun text =>
  match lead.toList.isPrefixOf? text with
  | some rest => some (true, rest)
  | none => some (false, text)

/-- The results of a reader until it has no more, within a number of rounds. -/
def collect (part : Reader (Option α)) : Nat → Reader (List α)
  | 0 => failure
  | rounds + 1 => do
    match ← part with
    | none => return []
    | some result => return result :: (← collect part rounds)

/-- As `collect`, for a part that takes at least one character with every result. -/
def many (part : Reader (Option α)) : Reader (List α) := do collect part ((← get).length + 1)

def exactly (count : Nat) (p : Char → Bool) : Reader Text := do
  let text := (← get).take count
  if text.length = count ∧ text.all p then
    modify (·.drop count)
    return text
  else failure

end Reader

def isBlank (c : Char) : Bool := c == ' ' || c == '\t'

/-- The characters of comments and strings: no control characters but the tab. -/
def isPlain (c : Char) : Bool := c == '\t' || (0x20 ≤ c.toNat && c.toNat != 0x7F)

namespace Reader

def skipBlanks : Reader Unit := do let _ ← takeWhile isBlank

def newline : Reader Unit := do
  let _ ← skips "\x0D"
  char '\n'

def atNewline : Reader Bool := do
  match ← peek with
  | some '\n' | some '\x0D' => return true
  | _ => return false

def comment : Reader Unit := do
  char '#'
  let _ ← takeWhile isPlain

def lineEnd : Reader Unit := do
  skipBlanks
  if (← peek) = some '#' then comment
  if (← peek).isSome then newline

/-- Blanks, line ends and comments between the elements of an array. -/
def skipLines : Reader Unit := do
  let _ ← many do
    skipBlanks
    if (← peek) = some '#' then
      comment
      newline
      return some '\n'
    else if ← atNewline then
      newline
      return some '\n'
    else return none

end Reader

/-! Values of TOML documents. Dates and times are kept as their normal text. -/

inductive Value where
  | string (text : Text)
  | integer (value : Int)
  | float (value : Number.Binary64)
  | boolean (value : Bool)
  | moment (text : Text)
  | array (elements : List Value)
  | table (entries : List (Text × Value))
  deriving Repr

/-! Strings: basic ones with escapes between double quotes and literal ones between single
quotes, each on one line or, between three quotes, on several. -/

open Reader

def hexDigits : Text := "0123456789abcdef".toList

def hexValue? (c : Char) : Option Nat := hexDigits.idxOf? c.toLower

def readHex (digits : Text) : Option Nat :=
  digits.foldlM (fun value c => (hexValue? c).map (16 * value + ·)) 0

/-- The character with a code of the given number of hexadecimal digits. -/
def scalar (digits : Nat) : Reader Text := do
  let code ← exactly digits fun c => (hexValue? c).isSome
  match readHex code with
  | some value => if value.isValidChar then return [Char.ofNat value] else failure
  | none => failure

def escape : Reader Text := do
  match ← next with
  | 'b' => return ['\x08']
  | 'f' => return ['\x0C']
  | 'n' => return ['\n']
  | 'r' => return ['\x0D']
  | 't' => return ['\t']
  | '"' => return ['"']
  | '\\' => return ['\\']
  | 'u' => scalar 4
  | 'U' => scalar 8
  | _ => failure

def singleLine (mark : Char) (escapes : Bool) : Reader Text := do
  char mark
  let parts ← many do
    let c ← next
    if c = mark then return none
    else if c = '\\' ∧ escapes then return some (← escape)
    else if isPlain c then return some [c]
    else failure
  return parts.flatten

/-- Blanks and line ends after a backslash at the end of a line. -/
def skipToContent : Text → Text
  | ' ' :: rest | '\t' :: rest | '\n' :: rest | '\x0D' :: '\n' :: rest => skipToContent rest
  | text => text

/-- An escape, or nothing at all for a backslash before the end of a line. -/
def lineEscape : Reader Text := do
  match (← get).dropWhile isBlank with
  | '\n' :: rest | '\x0D' :: '\n' :: rest =>
    set (skipToContent rest)
    return []
  | _ => escape

/-- A string between three marks. A line end right after the first three is dropped, and
one or two marks may stand before the last three. -/
def multiLine (mark : Char) (escapes : Bool) : Reader Text := do
  if ← atNewline then newline
  let parts ← many do
    if ← atNewline then
      newline
      return some ['\n']
    let marks := (← get).takeWhile (· == mark)
    if 3 ≤ marks.length then return none
    else if marks ≠ [] then some <$> takeWhile (· == mark)
    else
      let c ← next
      if c = '\\' ∧ escapes then return some (← lineEscape)
      else if isPlain c then return some [c]
      else failure
  let marks ← takeWhile (· == mark)
  if marks.length ≤ 5 then return parts.flatten ++ marks.drop 3 else failure

def quoted (mark : Char) (escapes : Bool) : Reader Text := do
  if ← skips (String.ofList [mark, mark, mark]) then multiLine mark escapes
  else singleLine mark escapes

end RestQuery.Toml

/-! Numbers: decimal integers and floats with a sign, and unsigned integers in base 16, 8
and 2. Single underscores may stand between digits. -/
namespace RestQuery.Toml

open Reader

/-- Digits with single underscores between them, given without the underscores. -/
def digits (isDigit : Char → Bool) : Reader Text := do
  let groups := (← takeWhile fun c => isDigit c || c == '_').splitOn '_'
  if groups.contains [] then failure else return groups.flatten

def wholeDigits : Reader Text := do
  match ← digits Char.isDigit with
  | '0' :: _ :: _ => failure
  | whole => return whole

def integer (value : Int) : Reader Value :=
  if Number.InRange value then return .integer value else failure

def inBase (base : Nat) : Reader Value := do
  let isDigit (c : Char) : Bool := (hexValue? c).any (· < base)
  let value := (← digits isDigit).foldl (fun n c => base * n + (hexValue? c).getD 0) 0
  integer value

/-- A float other than positive infinity. -/
def float (numeral : Text) : Reader Value :=
  match Number.Decimal.read? numeral with
  | none => failure
  | some value =>
    let nearest := Number.Binary64.ofDecimal value
    if nearest = .infinite false then failure else return .float nearest

def power : Reader Text := do
  let mark ← next
  let sign ← if ← skips "-" then pure ['-'] else do
    let _ ← skips "+"
    pure []
  return mark :: (sign ++ (← digits Char.isDigit))

def atPower : Reader Bool := do return (← peek) = some 'e' || (← peek) = some 'E'

def decimal (sign : Text) : Reader Value := do
  let whole ← wholeDigits
  if ← skips "." then
    let fraction ← digits Char.isDigit
    let exponent ← if ← atPower then power else pure []
    float (sign ++ whole ++ '.' :: (fraction ++ exponent))
  else if ← atPower then float (sign ++ whole ++ (← power))
  else
    let magnitude : Int := Nat.ofDigitChars 10 whole 0
    integer (if sign = [] then magnitude else -magnitude)

def number : Reader Value := do
  if ← skips "0x" then inBase 16
  else if ← skips "0o" then inBase 8
  else if ← skips "0b" then inBase 2
  else
    let negative ← skips "-"
    let _ ← if negative then pure false else skips "+"
    if ← skips "inf" then return .float (.infinite negative)
    else if ← skips "nan" then return .float .nan
    else decimal (if negative then ['-'] else [])

end RestQuery.Toml

/-! Dates and times: a date, a time, or a date and a time with or without an offset. They
are read into their normal text: a capital `T` between date and time, at most nine digits
of a second without zeros at the end, and a positive sign for an offset of nothing. -/
namespace RestQuery.Toml.Moment

open Reader

/-- A number of exactly so many digits within bounds, as text and as number. -/
def bounded (count least greatest : Nat) : Reader (Text × Nat) := do
  let text ← exactly count Char.isDigit
  let value := Nat.ofDigitChars 10 text 0
  if least ≤ value ∧ value ≤ greatest then return (text, value) else failure

def isLeap (year : Nat) : Bool := year % 4 == 0 && (year % 100 != 0 || year % 400 == 0)

def daysIn (year month : Nat) : Nat :=
  if month = 2 then (if isLeap year then 29 else 28)
  else if month = 4 ∨ month = 6 ∨ month = 9 ∨ month = 11 then 30
  else 31

def date : Reader Text := do
  let (yearText, year) ← bounded 4 0 9999
  char '-'
  let (monthText, month) ← bounded 2 1 12
  char '-'
  let (dayText, _) ← bounded 2 1 (daysIn year month)
  return ['-'].intercalate [yearText, monthText, dayText]

/-- The fraction of a second, of which nine digits count. -/
def fraction : Reader Text := do
  char '.'
  let digits ← takeWhile Char.isDigit
  if digits = [] then failure
  match ((digits.take 9).reverse.dropWhile (· == '0')).reverse with
  | [] => return []
  | kept => return '.' :: kept

def time : Reader Text := do
  let (hour, _) ← bounded 2 0 23
  char ':'
  let (minute, _) ← bounded 2 0 59
  char ':'
  let (second, _) ← bounded 2 0 60
  return [':'].intercalate [hour, minute, second] ++ ((← optional fraction).getD [])

def offset : Reader Text := do
  match ← next with
  | 'Z' | 'z' => return ['Z']
  | sign =>
    if sign ≠ '+' ∧ sign ≠ '-' then failure
    let (hour, hours) ← bounded 2 0 23
    char ':'
    let (minute, minutes) ← bounded 2 0 59
    return (if hours = 0 ∧ minutes = 0 then '+' else sign) :: (hour ++ ':' :: minute)

def timeAfterDate : Reader Text := do
  match ← next with
  | 'T' | 't' | ' ' => return 'T' :: (← time) ++ ((← optional offset).getD [])
  | _ => failure

def moment : Reader Text := do
  match ← optional date with
  | some day => return day ++ ((← optional timeAfterDate).getD [])
  | none => time

end RestQuery.Toml.Moment
