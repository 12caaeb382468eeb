import RestQuery.Text.WhiteSpace
import RestQuery.Text.Word

/-! Comma lists. A comma separates items only outside parentheses; a closing parenthesis
without an opening one leaves the depth at zero, so every text has a list of items. -/
namespace RestQuery.Token

def depthAfter (depth : Nat) (c : Char) : Nat :=
  if c = '(' then depth + 1 else if c = ')' then depth - 1 else depth

/-- The first segment of a text that starts at the given depth, and the other segments. -/
def segmentsFrom : Nat → Text → Text × List Text
  | _, [] => ([], [])
  | depth, c :: cs =>
    if c = ',' ∧ depth = 0 then
      let (first, others) := segmentsFrom 0 cs
      ([], first :: others)
    else
      let (first, others) := segmentsFrom (depthAfter depth c) cs
      (c :: first, others)

def segments (text : Text) : List Text :=
  let (first, others) := segmentsFrom 0 text
  first :: others

/-- The segments that hold anything but white space, trimmed. -/
def items (text : Text) : List Text :=
  ((segments text).map Text.trim).filter (· ≠ [])

theorem segments_ne_nil (text : Text) : segments text ≠ [] := by simp [segments]

theorem intercalate_segments (text : Text) : [','].intercalate (segments text) = text := by
  suffices ∀ depth,
      [','].intercalate ((segmentsFrom depth text).1 :: (segmentsFrom depth text).2) = text from
    this 0
  induction text with
  | nil => intro depth; rfl
  | cons c cs ih =>
    intro depth
    by_cases mark : c = ',' ∧ depth = 0
    · simpa [segmentsFrom, mark] using ih 0
    · have tail := ih (depthAfter depth c)
      rw [segmentsFrom, if_neg mark]
      cases rest : (segmentsFrom (depthAfter depth c) cs).2 <;> simp_all

example : segments "a,f(b,c),)d,".toList =
    ["a".toList, "f(b,c)".toList, ")d".toList, []] := by decide

/-! Dotted paths: identifiers with a point between each two of them. -/

abbrev Path := List Text

namespace Path

/-- Reads on inside an identifier: the rest of it, the identifiers after it, and what is
left over. A point that no identifier follows is left over. -/
def scan : Text → Text × List Text × Text
  | [] => ([], [], [])
  | c :: cs =>
    if Text.isWord c then
      let (name, names, rest) := scan cs
      (c :: name, names, rest)
    else if c = '.' then
      match scan cs with
      | ([], _, _) => ([], [], c :: cs)
      | (name, names, rest) => ([], name :: names, rest)
    else ([], [], c :: cs)

/-- The path at the start of the text, as long as possible, and what follows it. -/
def leading? (text : Text) : Option (Path × Text) :=
  match scan text with
  | ([], _, _) => none
  | (name, names, rest) => some (name :: names, rest)

def read? (token : Text) : Option Path :=
  match leading? token.trim with
  | some (path, []) => some path
  | _ => none

def toText (path : Path) : Text := ['.'].intercalate path

theorem toText_pair (name column : Text) : toText [name, column] = name ++ '.' :: column := by
  simp [toText, List.intercalate_cons_cons]

theorem scan_append (text : Text) :
    ['.'].intercalate ((scan text).1 :: (scan text).2.1) ++ (scan text).2.2 = text := by
  induction text with
  | nil => rfl
  | cons c cs ih =>
    by_cases word : Text.isWord c
    · cases names : (scan cs).2.1 <;> simp_all [scan]
    · by_cases point : c = '.'
      · rcases split : scan cs with ⟨_ | ⟨d, name⟩, names, rest⟩ <;>
          simp_all [scan]
      · simp_all [scan]

theorem leading?_append (h : leading? text = some (path, rest)) : path.toText ++ rest = text := by
  have whole := scan_append text
  unfold leading? at h
  split at h
  · simp at h
  · next split =>
    simp only [Option.some.injEq, Prod.mk.injEq] at h
    rw [← h.1, ← h.2]
    simpa [split, toText] using whole

example : read? " a.b_1 ".toList = some ["a".toList, "b_1".toList] := by decide
example : leading? "a.b.(c".toList = some (["a".toList, "b".toList], ".(c".toList) := by decide

end Path

/-! Calls: a path and, in parentheses, arguments whose own parentheses are balanced. -/

structure Call where
  path : Path
  args : Text
  deriving DecidableEq, Repr

namespace Call

/-- The text up to the parenthesis that closes the current depth, and the text after it. -/
def untilClosed : Nat → Text → Option (Text × Text)
  | _, [] => none
  | depth, c :: cs =>
    if c = ')' then
      match depth with
      | 0 => some ([], cs)
      | depth + 1 => (untilClosed depth cs).map fun (args, rest) => (c :: args, rest)
    else
      (untilClosed (if c = '(' then depth + 1 else depth) cs).map fun (args, rest) =>
        (c :: args, rest)

/-- The call at the start of the text, and what follows it. -/
def leading? (text : Text) : Option (Call × Text) :=
  match Path.leading? text with
  | some (path, '(' :: inner) => (untilClosed 0 inner).map fun (args, rest) => (⟨path, args⟩, rest)
  | _ => none

def read? (token : Text) : Option Call :=
  match leading? token.trim with
  | some (call, []) => some call
  | _ => none

def toText (call : Call) : Text := call.path.toText ++ '(' :: (call.args ++ [')'])

theorem toText_single (name args : Text) :
    toText ⟨[name], args⟩ = name ++ '(' :: (args ++ [')']) := by
  simp [toText, Path.toText]

theorem untilClosed_append {depth : Nat} {text args rest : Text}
    (h : untilClosed depth text = some (args, rest)) : args ++ ')' :: rest = text := by
  induction text generalizing depth args with
  | nil => simp [untilClosed] at h
  | cons c cs ih =>
    by_cases closes : c = ')'
    · cases depth with
      | zero => simp_all [untilClosed]
      | succ depth =>
        simp only [untilClosed, closes, if_true, Option.map_eq_some_iff, Prod.exists,
          Prod.mk.injEq] at h
        obtain ⟨inner, tail, found, rfl, rfl⟩ := h
        simpa [closes] using ih found
    · simp only [untilClosed, closes, if_false, Option.map_eq_some_iff, Prod.exists,
        Prod.mk.injEq] at h
      obtain ⟨inner, tail, found, rfl, rfl⟩ := h
      simpa using ih found

theorem leading?_append (h : leading? text = some (call, rest)) : call.toText ++ rest = text := by
  unfold leading? at h
  split at h
  · next path inner found =>
    simp only [Option.map_eq_some_iff, Prod.exists, Prod.mk.injEq] at h
    obtain ⟨args, after, closed, rfl, rfl⟩ := h
    have whole := Path.leading?_append found
    rw [← untilClosed_append closed] at whole
    simpa [toText] using whole
  · simp at h

example : read? " r.f(a,(b)) ".toList =
    some ⟨["r".toList, "f".toList], "a,(b)".toList⟩ := by decide
example : read? "f(a))".toList = none := by decide

end Call
end RestQuery.Token
