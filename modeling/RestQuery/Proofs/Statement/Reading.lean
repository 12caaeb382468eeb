import RestQuery.Proofs.Filter.Condition
import RestQuery.Proofs.Literal.Scan
import RestQuery.Proofs.Text

/-! Search conditions as the grammar of statements reads them. `OR` binds weakest, `AND`
tighter, and parentheses group. A comparison is a column, an operator and a literal or a
list of literals in parentheses. Blanks may stand before every token. -/
namespace RestQuery

/-- A search condition that was read, with the text of every comparison. -/
inductive Search where
  | comparison (text : Text)
  | joined (connective : Connective) (parts : List Search)
  deriving Inhabited, Repr

namespace Search

mutual

def truth (assign : Text → Truth) : Search → Truth
  | comparison text => assign text
  | joined connective parts => connective.join (allTruths assign parts)

def allTruths (assign : Text → Truth) : List Search → List Truth
  | [] => []
  | part :: parts => truth assign part :: allTruths assign parts

end

theorem allTruths_eq (assign : Text → Truth) (parts : List Search) :
    allTruths assign parts = parts.map (truth assign) := by
  induction parts with
  | nil => rfl
  | cons part parts ih => simp [allTruths, ih]

def mark? (mark : Char) (text : Text) : Option Text :=
  match text.trimStart with
  | [] => none
  | c :: rest => if c = mark then some rest else none

/-- A word, in letters of either case where they are English, and what follows it. -/
def word? (text : Text) : Option (Text × Text) :=
  (Text.leadingIdentifier? text.trimStart).map fun (word, rest) => (word.map Char.toUpper, rest)

def keyword? (keyword : String) (text : Text) : Option Text :=
  match word? text with
  | some (word, rest) => if word = keyword.toList then some rest else none
  | none => none

def column? (text : Text) : Option Text :=
  match Text.leadingIdentifier? text.trimStart with
  | some (_, '.' :: rest) => (Text.leadingIdentifier? rest).map (·.2)
  | _ => none

def isOperatorMark (c : Char) : Bool := c == '<' || c == '=' || c == '>'

/-- What follows an operator: one of the words, or a run of marks. -/
def operator? (text : Text) : Option Text :=
  match word? text with
  | some (word, rest) =>
    if word = "NOT".toList then keyword? "IN" rest
    else if word ∈ ["IN".toList, "IS".toList, "LIKE".toList, "ILIKE".toList] then some rest
    else none
  | none =>
    let text := text.trimStart
    if text.takeWhile isOperatorMark ∈ ["=".toList, "<>".toList, "<".toList, "<=".toList,
        ">".toList, ">=".toList] then some (text.dropWhile isOperatorMark)
    else none

def digits? (text : Text) : Option Text :=
  match word? text with
  | some (word, rest) => if word.all Char.isDigit then some rest else none
  | none => none

/-- What follows a literal: quoted text, a whole number or a keyword. -/
def literal? (text : Text) : Option Text :=
  match mark? '\'' text with
  | some inside => (Literal.closed? inside).map (·.2)
  | none =>
    match mark? '-' text with
    | some unsigned => digits? unsigned
    | none =>
      (digits? text).or <| (keyword? "NULL" text).or <| (keyword? "TRUE" text).or <|
        keyword? "FALSE" text

/-- Items with a separator between each two of them, at most as many as the fuel. -/
def separatedWithin (separator : Text → Option Text) (item : Text → Option (α × Text)) :
    Nat → Text → Option (List α × Text)
  | 0, _ => none
  | fuel + 1, text =>
    match item text with
    | none => none
    | some (first, rest) =>
      match separator rest with
      | none => some ([first], rest)
      | some next => (separatedWithin separator item fuel next).map fun (others, rest) =>
          (first :: others, rest)

def separated (separator : Text → Option Text) (item : Text → Option (α × Text)) (text : Text) :
    Option (List α × Text) := separatedWithin separator item (text.length + 1) text

def operand? (text : Text) : Option Text :=
  match mark? '(' text with
  | some opened =>
    match separated (mark? ',') (fun text => (literal? text).map ((), ·)) opened with
    | some (_, rest) => mark? ')' rest
    | none => none
  | none => literal? text

def comparison? (text : Text) : Option (Search × Text) :=
  let text := text.trimStart
  ((column? text).bind fun rest => (operator? rest).bind operand?).map fun rest =>
    (comparison (text.take (text.length - rest.length)), rest)

def primary? (inner : Text → Option (Search × Text)) (text : Text) : Option (Search × Text) :=
  match mark? '(' text with
  | some opened =>
    match inner opened with
    | some (search, rest) => (mark? ')' rest).map (search, ·)
    | none => none
  | none => comparison? text

def joined? (connective : Connective) (keyword : String) (part : Text → Option (Search × Text))
    (text : Text) : Option (Search × Text) :=
  (separated (keyword? keyword) part text).map fun (parts, rest) => (joined connective parts, rest)

/-- A disjunction of conjunctions, with parentheses at most as deep as the fuel. -/
def within? : Nat → Text → Option (Search × Text)
  | 0, _ => none
  | depth + 1, text => joined? .or "OR" (joined? .and "AND" (primary? (within? depth))) text

def read? (text : Text) : Option Search :=
  match within? (text.length + 1) text with
  | some (search, rest) => if rest.isBlank then some search else none
  | none => none

end Search

/-! Reading what statements write: columns, operators, literals, operands and comparisons,
and separated items. Every reader takes exactly the text written, after any blanks and
before whatever may follow. -/

/-- A literal that is a keyword, a whole number or text. -/
def Literal.IsExact : Literal → Prop
  | .float _ => False
  | _ => True

namespace Search

def Ends : Text → Prop
  | [] => True
  | c :: _ => c = ' ' ∨ c = ',' ∨ c = ')'

theorem startsWord_of_ends (ends : Ends rest) : Text.startsWord rest = false := by
  cases rest with
  | nil => rfl
  | cons c cs => rcases ends with rfl | rfl | rfl <;> rfl

theorem startsQuote_of_ends (ends : Ends rest) : Literal.startsQuote rest = false := by
  cases rest with
  | nil => rfl
  | cons c cs => rcases ends with rfl | rfl | rfl <;> rfl

/-- The reader takes the text written, and nothing of what may follow. -/
def Reads (read : Text → Option (α × Text)) (stops : Text → Prop) (written : Text)
    (value : α) : Prop :=
  ∀ blanks rest, Text.isBlank blanks = true → stops rest →
    read (blanks ++ (written ++ rest)) = some (value, rest)

theorem mark?_self (blank : Text.isBlank blanks = true) (bound : Text.isWhiteSpace mark = false) :
    mark? mark (blanks ++ mark :: rest) = some rest := by
  simp [mark?, blank, Text.trimStart_cons bound]

theorem mark?_other (blank : Text.isBlank blanks = true) (bound : Text.isWhiteSpace c = false)
    (other : c ≠ mark) : mark? mark (blanks ++ c :: rest) = none := by
  simp [mark?, blank, Text.trimStart_cons bound, other]

theorem mark?_identifier (blank : Text.isBlank blanks = true)
    (identifier : Text.IsIdentifier name) (other : Text.isWord mark = false) :
    mark? mark (blanks ++ (name ++ rest)) = none := by
  obtain ⟨filled, words⟩ := identifier
  cases name with
  | nil => contradiction
  | cons c cs =>
    have word := words c (by simp)
    refine mark?_other blank (Text.isWhiteSpace_eq_false_of_isWord word) ?_
    rintro rfl
    simp [word] at other

theorem word?_identifier (blank : Text.isBlank blanks = true)
    (identifier : Text.IsIdentifier name) (apart : Text.startsWord rest = false) :
    word? (blanks ++ (name ++ rest)) = some (name.map Char.toUpper, rest) := by
  simp [word?, blank, Text.trimStart_identifier_append identifier,
    Text.leadingIdentifier?_of_isIdentifier identifier apart]

theorem column?_toText {column : Column} (blank : Text.isBlank blanks = true)
    (table : Text.IsIdentifier column.table) (name : Text.IsIdentifier column.name) :
    column? (blanks ++ (column.toText ++ ' ' :: rest)) = some (' ' :: rest) := by
  have whole : column.toText ++ ' ' :: rest =
      column.table ++ ('.' :: (column.name ++ ' ' :: rest)) := by simp [Column.toText]
  have point : Text.startsWord ('.' :: (column.name ++ ' ' :: rest)) = false := rfl
  have space : Text.startsWord (' ' :: rest) = false := rfl
  simp [column?, blank, whole, Text.trimStart_identifier_append table,
    Text.leadingIdentifier?_of_isIdentifier table point,
    Text.leadingIdentifier?_of_isIdentifier name space]

theorem operator?_toSql (operator : Operator) (rest : Text) :
    operator? (' ' :: (operator.toSql ++ ' ' :: rest)) = some (' ' :: rest) := by
  cases operator <;> rfl

theorem toUpper_of_isDigit {c : Char} (digit : c.isDigit = true) : c.toUpper = c := by
  simp only [Char.isDigit, Bool.and_eq_true, decide_eq_true_eq] at digit
  unfold Char.toUpper
  rw [dif_neg]
  rintro ⟨low, _⟩
  have high := digit.2
  simp only [UInt32.le_iff_toNat_le] at low high
  have letter : 'a'.val.toNat = 97 := rfl
  have nine : '9'.val.toNat = 57 := rfl
  omega

theorem isIdentifier_ofNat (n : Nat) : Text.IsIdentifier (Number.ofNat n) :=
  ⟨Number.ofNat_ne_nil n, fun _ member => Text.isWord_of_isDigit (Number.isDigit_of_mem_ofNat member)⟩

theorem digits?_ofNat (blank : Text.isBlank blanks = true) (apart : Text.startsWord rest = false)
    (n : Nat) : digits? (blanks ++ (Number.ofNat n ++ rest)) = some rest := by
  have same : (Number.ofNat n).map Char.toUpper = Number.ofNat n :=
    (List.map_congr_left fun _ member =>
      toUpper_of_isDigit (Number.isDigit_of_mem_ofNat member)).trans (List.map_id _)
  have digits : (Number.ofNat n).all Char.isDigit = true :=
    List.all_eq_true.mpr fun _ member => Number.isDigit_of_mem_ofNat member
  simp [digits?, word?_identifier blank (isIdentifier_ofNat n) apart, same, digits]

theorem literal?_word (blank : Text.isBlank blanks = true) (identifier : Text.IsIdentifier name)
    (apart : Text.startsWord rest = false)
    (spelled : name.map Char.toUpper ∈ ["NULL".toList, "TRUE".toList, "FALSE".toList]) :
    literal? (blanks ++ (name ++ rest)) = some rest := by
  have quote : mark? '\'' (blanks ++ (name ++ rest)) = none :=
    mark?_identifier blank identifier (by decide)
  have minus : mark? '-' (blanks ++ (name ++ rest)) = none :=
    mark?_identifier blank identifier (by decide)
  simp only [List.mem_cons, List.not_mem_nil, or_false] at spelled
  rcases spelled with word | word | word <;>
    simp [literal?, quote, minus, digits?, keyword?, word?_identifier blank identifier apart, word]

theorem literal?_toSql {literal : Literal} (blank : Text.isBlank blanks = true)
    (exact : literal.IsExact) (ends : Ends rest) :
    literal? (blanks ++ (literal.toSql ++ rest)) = some rest := by
  have apart := startsWord_of_ends ends
  cases literal with
  | null => exact literal?_word blank (by decide) apart (by decide)
  | bool value => cases value <;> exact literal?_word blank (by decide) apart (by decide)
  | int value =>
    cases value with
    | ofNat n =>
      have quote : mark? '\'' (blanks ++ (Number.ofNat n ++ rest)) = none :=
        mark?_identifier blank (isIdentifier_ofNat n) (by decide)
      have minus : mark? '-' (blanks ++ (Number.ofNat n ++ rest)) = none :=
        mark?_identifier blank (isIdentifier_ofNat n) (by decide)
      simp [literal?, Number.ofInt, quote, minus, digits?_ofNat blank apart]
    | negSucc n =>
      have quote : mark? '\'' (blanks ++ '-' :: (Number.ofNat (n + 1) ++ rest)) = none :=
        mark?_other blank (by decide) (by decide)
      have minus : mark? '-' (blanks ++ '-' :: (Number.ofNat (n + 1) ++ rest)) =
          some (Number.ofNat (n + 1) ++ rest) := mark?_self blank (by decide)
      have digits : digits? (Number.ofNat (n + 1) ++ rest) = some rest :=
        digits?_ofNat Text.isBlank_nil apart (n + 1)
      simp [literal?, Number.ofInt, quote, minus, digits]
  | float value => exact exact.elim
  | string content =>
    have whole : (Literal.string content).toSql ++ rest = '\'' ::
        ((content.flatMap fun c => if c = '\'' then ['\'', '\''] else [c]) ++ '\'' :: rest) := by
      simp [Literal.quoted]
    rw [whole, literal?, mark?_self blank (by decide)]
    simp [Literal.closed?_escaped content (startsQuote_of_ends ends)]

section Separated

variable {item : Text → Option (α × Text)} {separator : Text → Option Text}
  {write : β → Text} {value : β → α} {inner stops : Text → Prop} {mark : Text}

/-- By induction on the items; each of them ends before a mark or before the rest. -/
theorem separatedWithin_intercalate {xs : List β} (filled : xs ≠ [])
    (each : ∀ x ∈ xs, Reads item inner (write x) (value x))
    (marked : ∀ text, inner (mark ++ text))
    (separates : ∀ text, separator (mark ++ text) = some (' ' :: text))
    (ends : inner rest) (last : separator rest = none)
    (blank : Text.isBlank blanks = true) (enough : xs.length ≤ fuel) :
    separatedWithin separator item fuel (blanks ++ (mark.intercalate (xs.map write) ++ rest)) =
      some (xs.map value, rest) := by
  induction xs generalizing fuel blanks with
  | nil => contradiction
  | cons x others ih =>
    obtain ⟨fuel, rfl⟩ : ∃ less, fuel = less + 1 :=
      ⟨fuel - 1, by simp only [List.length_cons] at enough; omega⟩
    have first := each x (by simp)
    cases others with
    | nil =>
      have read := first blanks rest blank ends
      simp [separatedWithin, read, last]
    | cons y others =>
      have later := ih (by simp) (fun x member => each x (List.mem_cons_of_mem _ member))
        Text.isBlank_space (Nat.le_of_succ_le_succ enough)
      have read := first blanks (mark ++ (mark.intercalate ((y :: others).map write) ++ rest))
        blank (marked _)
      simp only [List.map_cons, List.intercalate_cons_cons, List.append_assoc] at *
      simp only [List.cons_append, List.nil_append] at later
      simp [separatedWithin, read, separates, later]

theorem reads_separated {xs : List β} (filled : xs ≠ [])
    (each : ∀ x ∈ xs, Reads item inner (write x) (value x))
    (between : mark ≠ [] ∧ ∀ text, inner (mark ++ text) ∧
      separator (mark ++ text) = some (' ' :: text))
    (after : ∀ rest, stops rest → inner rest ∧ separator rest = none) :
    Reads (separated separator item) stops (mark.intercalate (xs.map write)) (xs.map value) := by
  intro blanks rest blank ends
  refine separatedWithin_intercalate filled each (fun text => (between.2 text).1)
    (fun text => (between.2 text).2) (after rest ends).1 (after rest ends).2 blank ?_
  have := Text.count_le_intercalate between.1 (xs.map write)
  simp only [List.length_map, List.length_append] at *
  omega

end Separated

/-- A literal opens no parenthesis. -/
theorem mark?_literal {literal : Literal} (blank : Text.isBlank blanks = true)
    (exact : literal.IsExact) : mark? '(' (blanks ++ (literal.toSql ++ rest)) = none := by
  have word : Text.isWord '(' = false := by decide
  cases literal with
  | null => exact mark?_identifier blank (by decide) word
  | bool value => cases value <;> exact mark?_identifier blank (by decide) word
  | int value =>
    cases value with
    | ofNat n => exact mark?_identifier blank (isIdentifier_ofNat n) word
    | negSucc n => exact mark?_other blank (by decide) (by decide)
  | float value => exact exact.elim
  | string content => exact mark?_other blank (by decide) (by decide)

theorem operand?_single {literal : Literal} (exact : literal.IsExact) (ends : Ends rest) :
    operand? (' ' :: (literal.toSql ++ rest)) = some rest := by
  have unopened : mark? '(' (' ' :: (literal.toSql ++ rest)) = none :=
    mark?_literal Text.isBlank_space exact
  have read : literal? (' ' :: (literal.toSql ++ rest)) = some rest :=
    literal?_toSql Text.isBlank_space exact ends
  simp [operand?, unopened, read]

theorem operand?_list {literals : List Literal} (filled : literals ≠ [])
    (exact : ∀ literal ∈ literals, literal.IsExact) (rest : Text) :
    operand? (' ' :: '(' :: (", ".toList.intercalate (literals.map Literal.toSql) ++ ')' :: rest)) =
      some rest := by
  have each : ∀ literal ∈ literals,
      Reads (fun text => (literal? text).map ((), ·)) Ends literal.toSql () := by
    intro literal member blanks rest blank ends
    simp [literal?_toSql blank (exact literal member) ends]
  have list : Reads (separated (mark? ',') fun text => (literal? text).map ((), ·))
      (fun rest => ∃ left, rest = ')' :: left) (", ".toList.intercalate (literals.map Literal.toSql))
      (literals.map fun _ => ()) := by
    refine reads_separated filled each ⟨by decide, fun text => ⟨.inr (.inl rfl), rfl⟩⟩ ?_
    rintro _ ⟨left, rfl⟩
    exact ⟨.inr (.inr rfl), rfl⟩
  have read := list [] (')' :: rest) rfl ⟨rest, rfl⟩
  have opened : mark? '(' (' ' :: '(' :: (", ".toList.intercalate
      (literals.map Literal.toSql) ++ ')' :: rest)) = some _ :=
    mark?_self Text.isBlank_space (by decide)
  rw [List.nil_append] at read
  rw [operand?, opened]
  simp only [read]
  exact mark?_self Text.isBlank_nil (by decide)

/-- The text of a comparison is read as a comparison, and kept as it was written. -/
theorem reads_comparison {column : Column} {operand : Operand} (operator : Operator)
    (table : Text.IsIdentifier column.table) (name : Text.IsIdentifier column.name)
    (filled : operand.literals ≠ []) (exact : ∀ literal ∈ operand.literals, literal.IsExact) :
    Reads comparison? Ends (Condition.comparisonToSql column operator operand)
      (comparison (Condition.comparisonToSql column operator operand)) := by
  intro blanks rest blank ends
  generalize written : Condition.comparisonToSql column operator operand = text
  have compared : ((column? (text ++ rest)).bind fun rest =>
      (operator? rest).bind operand?) = some rest := by
    subst written
    have column (left : Text) : column? (column.toText ++ ' ' :: left) = some (' ' :: left) :=
      column?_toText Text.isBlank_nil table name
    cases operand with
    | single literal =>
      simp [Condition.comparisonToSql, column, operator?_toSql,
        operand?_single (exact literal (by simp [Operand.literals])) ends]
    | list literals =>
      have list : operand? (' ' :: '(' :: (", ".toList.intercalate
          (literals.map Literal.toSql) ++ ')' :: rest)) = some rest :=
        operand?_list filled exact rest
      simpa [Condition.comparisonToSql, column, operator?_toSql] using list
  have start : (blanks ++ (text ++ rest)).trimStart = text ++ rest := by
    have tabled : column.table <+: text := by
      simp [← written, Condition.comparisonToSql, Column.toText]
    obtain ⟨tail, whole⟩ := tabled
    rw [Text.trimStart_blanks_append blank, ← whole, List.append_assoc,
      Text.trimStart_identifier_append table]
  simp [comparison?, start, compared]

end Search
end RestQuery
