import RestQuery.Text.Basic

/-! White space in the sense of the Unicode property White_Space, and trimming. -/
namespace RestQuery.Text

def isWhiteSpace (c : Char) : Bool :=
  let n := c.toNat
  (9 ≤ n && n ≤ 13) || n == 0x20 || n == 0x85 || n == 0xA0 || n == 0x1680 ||
    (0x2000 ≤ n && n ≤ 0x200A) || n == 0x2028 || n == 0x2029 || n == 0x202F || n == 0x205F ||
    n == 0x3000

def trimStart (text : Text) : Text := text.dropWhile isWhiteSpace

def trimEnd : Text → Text
  | [] => []
  | c :: cs =>
    match trimEnd cs with
    | [] => if isWhiteSpace c then [] else [c]
    | kept => c :: kept

def trim (text : Text) : Text := trimEnd (trimStart text)

def isBlank (text : Text) : Bool := text.all isWhiteSpace

theorem trimEnd_eq_nil_iff : trimEnd text = [] ↔ text.all isWhiteSpace := by
  induction text with
  | nil => simp [trimEnd]
  | cons c cs ih =>
    cases rest : trimEnd cs with
    | nil => by_cases white : isWhiteSpace c <;> simp_all [trimEnd]
    | cons => simp_all [trimEnd]

theorem trim_eq_nil_iff : trim text = [] ↔ isBlank text := by
  simp only [trim, trimEnd_eq_nil_iff, trimStart, isBlank]
  induction text with
  | nil => simp
  | cons c cs ih => by_cases white : isWhiteSpace c <;> simp_all

end RestQuery.Text
