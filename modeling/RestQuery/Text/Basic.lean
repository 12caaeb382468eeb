/-! Text as a list of characters. Names, literals, query fragments and rendered
statements are all of this type, so that every rule about them is one about lists.
The order of texts is by character code, first difference first. -/
namespace RestQuery

abbrev Text := List Char

namespace Text

/-- The text before the first `mark` and, when there is one, the text after it. -/
def cutFirst (mark : Char) : Text → Text × Option Text
  | [] => ([], none)
  | c :: cs =>
    if c = mark then ([], some cs)
    else
      let (before, after) := cutFirst mark cs
      (c :: before, after)

theorem cutFirst_eq_some_iff :
    cutFirst mark text = (before, some after) ↔ mark ∉ before ∧ text = before ++ mark :: after := by
  induction text generalizing before with
  | nil => simp [cutFirst]
  | cons c cs ih => cases before <;> grind [cutFirst]

/-- What takes the characters of one class stops where they end. -/
theorem span_append {p : Char → Bool} {text rest : Text} (each : ∀ c ∈ text, p c = true)
    (stops : ∀ c ∈ rest.head?, p c = false) :
    (text ++ rest).takeWhile p = text ∧ (text ++ rest).dropWhile p = rest := by
  rw [List.takeWhile_append_of_pos each, List.dropWhile_append_of_pos each]
  cases rest with
  | nil => simp
  | cons c cs => simp [stops c rfl]

end Text
end RestQuery

/-! The order of texts is a strict total order. -/
namespace RestQuery.Text

theorem lt_irrefl (a : Text) : ¬ a < a := List.lt_irrefl a

theorem lt_trans {a b c : Text} (first : a < b) (second : b < c) : a < c :=
  List.lt_trans first second

theorem lt_asymm {a b : Text} (h : a < b) : ¬ b < a := List.lt_asymm h

theorem lt_of_not_lt {a b : Text} (h : ¬ a < b) (apart : a ≠ b) : b < a := by
  rcases List.le_iff_lt_or_eq.mp (List.not_lt.mp h) with less | same
  · exact less
  · exact absurd same.symm apart

theorem ne_of_lt {a b : Text} (h : a < b) : a ≠ b := fun same => lt_irrefl b (same ▸ h)

/-! Text as bytes in UTF-8, and bytes as text. Decoding never fails: every longest start
of a character that is not completed, and every byte that starts none, is shown by one
replacement character. -/

def toUtf8 (text : Text) : List UInt8 := text.flatMap String.utf8EncodeChar

def replacement : Char := '\uFFFD'

/-- A character begun: how many bytes follow the next one, the least and the greatest that
the next one may be, and the bits read so far. -/
structure Begun where
  further : Nat
  least : UInt8
  greatest : UInt8
  bits : Nat

namespace Utf8

/-- What a first byte makes: a character, a replacement, or a character begun. -/
def first (byte : UInt8) : Text × Option Begun :=
  if byte < 0x80 then ([Char.ofNat byte.toNat], none)
  else if byte < 0xC2 then ([replacement], none)
  else if byte < 0xE0 then ([], some ⟨0, 0x80, 0xBF, byte.toNat - 0xC0⟩)
  else if byte < 0xF0 then
    ([], some ⟨1, if byte = 0xE0 then 0xA0 else 0x80, if byte = 0xED then 0x9F else 0xBF,
      byte.toNat - 0xE0⟩)
  else if byte < 0xF5 then
    ([], some ⟨2, if byte = 0xF0 then 0x90 else 0x80, if byte = 0xF4 then 0x8F else 0xBF,
      byte.toNat - 0xF0⟩)
  else ([replacement], none)

/-- What one more byte makes. A byte that cannot continue the character begun starts anew. -/
def step : Option Begun → UInt8 → Text × Option Begun
  | none, byte => first byte
  | some begun, byte =>
    if begun.least ≤ byte ∧ byte ≤ begun.greatest then
      let bits := 64 * begun.bits + (byte.toNat - 0x80)
      match begun.further with
      | 0 => ([Char.ofNat bits], none)
      | further + 1 => ([], some ⟨further, 0x80, 0xBF, bits⟩)
    else
      let (text, next) := first byte
      (replacement :: text, next)

def decodeFrom : Option Begun → List UInt8 → Text
  | none, [] => []
  | some _, [] => [replacement]
  | state, byte :: bytes =>
    let (text, next) := step state byte
    text ++ decodeFrom next bytes

end Utf8

def ofUtf8 (bytes : List UInt8) : Text := Utf8.decodeFrom none bytes

example : ofUtf8 [0x61, 0xC3, 0xA9, 0xE2, 0x82, 0xAC] = "aé€".toList := by decide
example : ofUtf8 [0xE2, 0x82, 0x41, 0xFF] = [replacement, 'A', replacement] := by decide

end RestQuery.Text
