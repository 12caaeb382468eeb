import RestQuery.Literal
import RestQuery.Proofs.Number.Layout
import RestQuery.Proofs.Text

/-! Quoted literals in a statement. A quote inside the literal is written twice, so that a
quote which stands alone ends it. Reading gives back what was quoted. -/
namespace RestQuery.Literal

/-- The content of a literal whose opening quote was read, and the text after its end. -/
def closed? : Text → Option (Text × Text)
  | [] => none
  | '\'' :: '\'' :: rest => (closed? rest).map fun (content, rest) => ('\'' :: content, rest)
  | c :: rest =>
    if c = '\'' then some ([], rest)
    else (closed? rest).map fun (content, rest) => (c :: content, rest)

def startsQuote : Text → Bool
  | [] => false
  | c :: _ => c = '\''

theorem closed?_quote (apart : startsQuote rest = false) : closed? ('\'' :: rest) = some ([], rest) := by
  cases rest with
  | nil => rfl
  | cons c cs =>
    have other : c ≠ '\'' := by simpa [startsQuote] using apart
    rw [closed?]
    · simp
    · intro _ _ same
      exact other (List.cons.inj same).1

theorem closed?_cons (other : c ≠ '\'') (text : Text) : closed? (c :: text) =
    (closed? text).map fun (content, rest) => (c :: content, rest) := by
  rw [closed?]
  · simp [other]
  · intro _ same _
    exact other same

/-- By induction on the content: each step of writing is undone by one step of reading. -/
theorem closed?_escaped (content : Text) (apart : startsQuote rest = false) :
    closed? ((content.flatMap fun c => if c = '\'' then ['\'', '\''] else [c]) ++ '\'' :: rest) =
      some (content, rest) := by
  induction content with
  | nil => exact closed?_quote apart
  | cons c cs ih =>
    by_cases quote : c = '\''
    · subst quote
      simp [closed?, ih]
    · simp only [List.flatMap_cons, if_neg quote, List.cons_append, List.nil_append]
      rw [closed?_cons quote, ih]
      rfl

theorem length_closed? (read : closed? text = some (content, rest)) :
    rest.length < text.length := by
  fun_induction closed? text generalizing content with
  | case1 => contradiction
  | case2 tail ih =>
    obtain ⟨⟨inner, left⟩, found, same⟩ := Option.map_eq_some_iff.mp read
    obtain ⟨rfl, rfl⟩ := Prod.mk.inj same
    have := ih found
    simp only [List.length_cons]
    omega
  | case3 tail =>
    obtain ⟨rfl, rfl⟩ := Prod.mk.inj (Option.some.inj read)
    simp
  | case4 c tail other _ ih =>
    obtain ⟨⟨inner, left⟩, found, same⟩ := Option.map_eq_some_iff.mp read
    obtain ⟨rfl, rfl⟩ := Prod.mk.inj same
    have := ih found
    simp only [List.length_cons]
    omega

end RestQuery.Literal

/-! Scanning a text for quoted literals, from left to right. What stands outside the
literals is told apart from their contents. -/
namespace RestQuery

def Text.IsPlain (text : Text) : Prop := '\'' ∉ text

instance (text : Text) : Decidable text.IsPlain := inferInstanceAs (Decidable ('\'' ∉ text))

theorem Text.isPlain_of_isNumeral {text : Text} (each : ∀ c ∈ text, Number.IsNumeral c) :
    text.IsPlain := by
  intro member
  rcases each _ member with digit | other | other | other | other <;> contradiction

theorem Text.IsPlain.intercalate {mark : Text} {texts : List Text} (plain : mark.IsPlain)
    (each : ∀ text ∈ texts, text.IsPlain) : Text.IsPlain (mark.intercalate texts) := by
  intro member
  rcases Text.mem_of_mem_intercalate member with marked | ⟨text, present, member⟩
  · exact plain marked
  · exact each text present member

namespace Literal

/-- The text outside the literals, where each of them leaves its two quotes, and their
contents in order. There is nothing if the text ends inside a literal. -/
def scan (text : Text) : Option (Text × List Text) :=
  match text with
  | [] => some ([], [])
  | c :: rest =>
    if c = '\'' then
      match _read : closed? rest with
      | none => none
      | some (content, rest) => (scan rest).map fun (outside, contents) =>
          ('\'' :: '\'' :: outside, content :: contents)
    else (scan rest).map fun (outside, contents) => (c :: outside, contents)
termination_by text.length
decreasing_by
  · have := length_closed? _read
    simp only [List.length_cons]
    omega
  · simp

theorem scan_nil : scan [] = some ([], []) := by rw [scan]

theorem scan_cons (other : c ≠ '\'') (text : Text) : scan (c :: text) =
    (scan text).map fun (outside, contents) => (c :: outside, contents) := by
  rw [scan, if_neg other]

theorem scan_plain_append (plain : Text.IsPlain text) (rest : Text) : scan (text ++ rest) =
    (scan rest).map fun (outside, contents) => (text ++ outside, contents) := by
  induction text with
  | nil => simp
  | cons c cs ih =>
    obtain ⟨other, plain⟩ := List.ne_and_not_mem_of_not_mem_cons plain
    rw [List.cons_append, scan_cons (Ne.symm other), ih plain, Option.map_map]
    rfl

theorem scan_quoted_append (content : Text) (apart : startsQuote rest = false) :
    scan (quoted content ++ rest) = (scan rest).map fun (outside, contents) =>
      ('\'' :: '\'' :: outside, content :: contents) := by
  have closes := closed?_escaped content apart
  simp only [quoted, List.cons_append, List.append_assoc, List.nil_append]
  rw [scan, if_pos rfl]
  split
  · next unclosed => simp [closes] at unclosed
  · next found =>
    obtain ⟨rfl, rfl⟩ := Prod.mk.inj (Option.some.inj (closes.symm.trans found))
    rfl

theorem startsQuote_of_isPlain (plain : Text.IsPlain text) : startsQuote text = false := by
  cases text with
  | nil => rfl
  | cons c cs => simpa [startsQuote] using Ne.symm (List.ne_of_not_mem_cons plain)

/-- The text scans so before any further text that scans, unless that starts with a quote. -/
def Scans (text outside : Text) (contents : List Text) : Prop :=
  ∀ rest left more, startsQuote rest = false → scan rest = some (left, more) →
    scan (text ++ rest) = some (outside ++ left, contents ++ more)

namespace Scans

theorem plain (plain : Text.IsPlain text) : Scans text text [] := by
  intro rest left more apart read
  rw [scan_plain_append plain, read]
  rfl

theorem quoted (content : Text) : Scans (quoted content) (Literal.quoted []) [content] := by
  intro rest left more apart read
  rw [scan_quoted_append content apart, read]
  rfl

theorem append (first : Scans a outside contents) (second : Scans b left more)
    (apart : startsQuote b = false) : Scans (a ++ b) (outside ++ left) (contents ++ more) := by
  intro rest _ _ ends read
  have starts : startsQuote (b ++ rest) = false := by
    cases b with
    | nil => exact ends
    | cons c cs => exact apart
  have whole := first _ _ _ starts (second _ _ _ ends read)
  simpa only [List.append_assoc] using whole

/-- Plain text may stand before a literal. -/
theorem plain_append (plain : Text.IsPlain text) (second : Scans b outside contents) :
    Scans (text ++ b) (text ++ outside) contents := by
  intro rest left more ends read
  rw [List.append_assoc, scan_plain_append plain, second _ _ _ ends read]
  simp

theorem append_plain (first : Scans a outside contents) (plain : Text.IsPlain b) :
    Scans (a ++ b) (outside ++ b) contents := by
  have whole := first.append (Scans.plain plain) (startsQuote_of_isPlain plain)
  rwa [List.append_nil] at whole

theorem whole (scans : Scans text outside contents) : scan text = some (outside, contents) := by
  have read := scans [] [] [] rfl scan_nil
  simpa only [List.append_nil] using read

/-- A mark between texts parts the literals at their ends. -/
theorem intercalate {texts : List α} {text outside : α → Text} {contents : α → List Text}
    {mark : Text} (plain : mark.IsPlain) (filled : mark ≠ [])
    (each : ∀ x ∈ texts, Scans (text x) (outside x) (contents x)) :
    Scans (mark.intercalate (texts.map text)) (mark.intercalate (texts.map outside))
      (texts.flatMap contents) := by
  induction texts with
  | nil => exact Scans.plain (by simp [Text.IsPlain])
  | cons first others ih =>
    have start := each first (by simp)
    have later := ih fun x member => each x (List.mem_cons_of_mem _ member)
    cases others with
    | nil => simpa using start
    | cons second rest =>
      have apart (tail : Text) : startsQuote (mark ++ tail) = false := by
        have start := startsQuote_of_isPlain plain
        cases mark with
        | nil => contradiction
        | cons c cs => exact start
      have whole := start.append (plain_append plain later) (apart _)
      simpa only [List.map_cons, List.intercalate_cons_cons, List.flatMap_cons,
        List.append_assoc] using whole

end Scans

def emptied : Literal → Literal
  | .string _ => .string []
  | literal => literal

def strings : Literal → List Text
  | .string content => [content]
  | _ => []

theorem isPlain_write (value : Number.Binary64) : Text.IsPlain (layout.write value) := by
  cases value with
  | finite negative significand exponent =>
    exact Text.isPlain_of_isNumeral fun _ => Number.Layout.isNumeral_of_mem_write layout
  | infinite negative => cases negative <;> decide
  | nan => decide

theorem scans_toSql (literal : Literal) :
    Scans literal.toSql literal.emptied.toSql literal.strings := by
  cases literal with
  | null => exact .plain (by decide)
  | bool value => cases value <;> exact .plain (by decide)
  | int value =>
    exact .plain (Text.isPlain_of_isNumeral fun _ => Number.isNumeral_of_mem_ofInt)
  | float value => exact .plain (isPlain_write value)
  | string content => exact .quoted content

end Literal
end RestQuery
