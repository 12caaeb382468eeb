import RestQuery.Json
import RestQuery.Proofs.Number.Layout

/-! Compact JSON without floats is unambiguous. The first character of a value tells its kind,
and a value ends before whatever may follow it, so that a text has one reading. -/
namespace RestQuery.Json

inductive FloatFree : Json → Prop
  | null : FloatFree .null
  | bool (value : Bool) : FloatFree (.bool value)
  | int (value : Int) : FloatFree (.int value)
  | string (value : Text) : FloatFree (.string value)
  | array : (∀ element ∈ elements, FloatFree element) → FloatFree (.array elements)
  | object : (∀ member ∈ members, FloatFree member.2) → FloatFree (.object members)

/-! ### Strings -/

/-- The control character that a letter after a backslash stands for; other characters stand
for themselves. -/
def named : Char → Char
  | 'n' => '\n'
  | 'r' => '\r'
  | 't' => '\t'
  | 'b' => '\x08'
  | 'f' => '\x0c'
  | c => c

def hexValue (c : Char) : Nat := if c.isDigit then c.toNat - 48 else c.toNat - 87

def unescape? : Text → Option (Char × Text)
  | [] => none
  | '\\' :: 'u' :: _ :: _ :: high :: low :: rest =>
    some (.ofNat (16 * hexValue high + hexValue low), rest)
  | '\\' :: c :: rest => some (named c, rest)
  | c :: rest => some (c, rest)

theorem unescape?_cons (other : c ≠ '\\') (rest : Text) :
    unescape? (c :: rest) = some (c, rest) := by
  rw [unescape?]
  · intro _ _ _ _ _ same _
    exact other same
  · intro _ _ same _
    exact other same

theorem hexValue_digits : ∀ n < 32, 16 * hexValue (n / 16).digitChar +
    hexValue (n % 16).digitChar = n := by decide

/-- Escaping a character is undone whatever follows. -/
theorem unescape?_escape (c : Char) (rest : Text) :
    unescape? (escape c ++ rest) = some (c, rest) := by
  have code (n : Nat) (same : c.toNat = n) : c = Char.ofNat n := by rw [← same, Char.ofNat_toNat]
  by_cases quote : c = '"'
  · subst quote; rfl
  by_cases slash : c = '\\'
  · subst slash; rfl
  by_cases line : c = '\n'
  · subst line; rfl
  by_cases carriage : c = '\r'
  · subst carriage; rfl
  by_cases tab : c = '\t'
  · subst tab; rfl
  by_cases back : c.toNat = 8
  · rw [code 8 back]; rfl
  by_cases feed : c.toNat = 12
  · rw [code 12 feed]; rfl
  simp only [escape, quote, slash, line, carriage, tab, back, feed, if_false]
  by_cases control : c.toNat < 32
  · have value := hexValue_digits c.toNat control
    simp only [control, if_true, List.cons_append, List.nil_append, unescape?, value,
      Char.ofNat_toNat]
  · rw [if_neg control]
    exact unescape?_cons slash rest

theorem head?_escape (c : Char) (rest : Text) : (escape c ++ rest).head? ≠ some '"' := by
  unfold escape
  split
  · simp
  · next other =>
    repeat' split
    all_goals simp [other]

/-- By induction on the first text: an escape stands for one character, and no escape starts
with the quote that ends the text. -/
theorem escaped_append_inj {a b r s : Text}
    (same : a.flatMap escape ++ '"' :: r = b.flatMap escape ++ '"' :: s) : a = b ∧ r = s := by
  induction a generalizing b with
  | nil =>
    cases b with
    | nil => exact ⟨rfl, (List.cons.inj same).2⟩
    | cons d b =>
      rw [List.flatMap_cons, List.append_assoc] at same
      exact absurd (congrArg List.head? same).symm (head?_escape d _)
  | cons c a ih =>
    cases b with
    | nil =>
      rw [List.flatMap_cons, List.append_assoc] at same
      exact absurd (congrArg List.head? same) (head?_escape c _)
    | cons d b =>
      have read := congrArg unescape? same
      simp only [List.flatMap_cons, List.append_assoc, unescape?_escape, Option.some.injEq,
        Prod.mk.injEq] at read
      obtain ⟨rfl, rest⟩ := read
      obtain ⟨rfl, rfl⟩ := ih rest
      exact ⟨rfl, rfl⟩

theorem quoted_append_inj {a b r s : Text} (same : quoted a ++ r = quoted b ++ s) :
    a = b ∧ r = s := by
  apply escaped_append_inj
  simpa [quoted] using same

/-! ### Lists -/

/-- Nothing follows a value but the end of the text, a comma, or a bracket that closes. -/
def Ends (rest : Text) : Prop := ∀ c ∈ rest.head?, c = ',' ∨ c = ']' ∨ c = '}'

/-- The two values are told apart by their texts, whatever follows them. -/
def TellsApart (write : α → Text) (x y : α) : Prop :=
  ∀ {r s}, Ends r → Ends s → write x ++ r = write y ++ s → x = y ∧ r = s

section

variable {write : α → Text} {close : Char} {xs ys : List α} {r s : Text}

theorem intercalate_cons (x : Text) (xs : List Text) :
    [','].intercalate (x :: xs) = x ++ xs.flatMap (',' :: ·) := by
  induction xs generalizing x with
  | nil => simp
  | cons y ys ih => simp [List.intercalate_cons_cons, ih y]

theorem ends_more (closes : Ends [close]) (xs : List Text) (rest : Text) :
    Ends (xs.flatMap (',' :: ·) ++ close :: rest) := by
  intro c first
  cases xs with
  | nil => exact closes c (by simpa using first)
  | cons x xs => exact .inl (by simpa using first.symm)

/-- By induction on the first list: a comma goes on and the bracket does not. -/
theorem more_append_inj (closes : Ends [close]) (apart : close ≠ ',')
    (each : ∀ x ∈ xs, ∀ y ∈ ys, TellsApart write x y)
    (same : (xs.map write).flatMap (',' :: ·) ++ close :: r =
      (ys.map write).flatMap (',' :: ·) ++ close :: s) : xs = ys ∧ r = s := by
  induction xs generalizing ys with
  | nil =>
    cases ys with
    | nil => exact ⟨rfl, (List.cons.inj same).2⟩
    | cons y ys => exact absurd (List.cons.inj same).1 apart
  | cons x xs ih =>
    cases ys with
    | nil => exact absurd (List.cons.inj same).1.symm apart
    | cons y ys =>
      simp only [List.map_cons, List.flatMap_cons, List.cons_append, List.append_assoc,
        List.cons.injEq, true_and] at same
      obtain ⟨rfl, rest⟩ := each x (by simp) y (by simp) (ends_more closes _ r)
        (ends_more closes _ s) same
      obtain ⟨rfl, rfl⟩ := ih (fun x inX y inY =>
        each x (List.mem_cons_of_mem _ inX) y (List.mem_cons_of_mem _ inY)) rest
      exact ⟨rfl, rfl⟩

theorem intercalate_append_inj (closes : Ends [close]) (apart : close ≠ ',')
    (starts : ∀ x, x ∈ xs ∨ x ∈ ys → ∀ rest, (write x ++ rest).head? ≠ some close)
    (each : ∀ x ∈ xs, ∀ y ∈ ys, TellsApart write x y)
    (same : [','].intercalate (xs.map write) ++ close :: r =
      [','].intercalate (ys.map write) ++ close :: s) : xs = ys ∧ r = s := by
  cases xs with
  | nil =>
    cases ys with
    | nil => exact ⟨rfl, (List.cons.inj same).2⟩
    | cons y ys =>
      rw [List.map_cons, intercalate_cons, List.append_assoc] at same
      exact absurd (congrArg List.head? same).symm (starts y (by simp) _)
  | cons x xs =>
    cases ys with
    | nil =>
      rw [List.map_cons, intercalate_cons, List.append_assoc] at same
      exact absurd (congrArg List.head? same) (starts x (by simp) _)
    | cons y ys =>
      rw [List.map_cons, List.map_cons, intercalate_cons, intercalate_cons, List.append_assoc,
        List.append_assoc] at same
      obtain ⟨rfl, rest⟩ := each x (by simp) y (by simp) (ends_more closes _ r)
        (ends_more closes _ s) same
      obtain ⟨rfl, rfl⟩ := more_append_inj closes apart (fun x inX y inY =>
        each x (List.mem_cons_of_mem _ inX) y (List.mem_cons_of_mem _ inY)) rest
      exact ⟨rfl, rfl⟩

end

/-! ### Values -/

inductive Kind where
  | null | bool (value : Bool) | number | string | array | object
  deriving DecidableEq

def kind : Json → Kind
  | .null => .null
  | .bool value => .bool value
  | .int _ | .float _ => .number
  | .string _ => .string
  | .array _ => .array
  | .object _ => .object

def Kind.ofFirst? (c : Char) : Option Kind :=
  if c = 'n' then some .null
  else if c = 't' then some (.bool true)
  else if c = 'f' then some (.bool false)
  else if c = '"' then some .string
  else if c = '[' then some .array
  else if c = '{' then some .object
  else if c = '-' ∨ c.isDigit = true then some .number
  else none

theorem Kind.ofFirst?_isDigit (digit : c.isDigit = true) : ofFirst? c = some .number := by
  have other {d : Char} (bound : d.isDigit = false) : c ≠ d := by
    rintro rfl
    rw [digit] at bound
    contradiction
  simp [ofFirst?, digit, other (show 'n'.isDigit = false by rfl),
    other (show 't'.isDigit = false by rfl), other (show 'f'.isDigit = false by rfl),
    other (show '"'.isDigit = false by rfl), other (show '['.isDigit = false by rfl),
    other (show '{'.isDigit = false by rfl)]

theorem first_compact (plain : FloatFree json) (rest : Text) :
    ∃ c, (json.compact ++ rest).head? = some c ∧ Kind.ofFirst? c = some json.kind := by
  cases plain with
  | null => exact ⟨'n', rfl, rfl⟩
  | bool value => cases value <;> exact ⟨_, rfl, rfl⟩
  | int value =>
    cases value with
    | ofNat n =>
      obtain ⟨c, cs, written⟩ := List.exists_cons_of_ne_nil (Number.ofNat_ne_nil n)
      have digit := Number.isDigit_of_mem_ofNat (n := n) (c := c) (by simp [written])
      exact ⟨c, by simp [compact, Number.ofInt, written], Kind.ofFirst?_isDigit digit⟩
    | negSucc n => exact ⟨'-', rfl, rfl⟩
  | string value => exact ⟨'"', rfl, rfl⟩
  | array => exact ⟨'[', rfl, rfl⟩
  | object => exact ⟨'{', rfl, rfl⟩

theorem kind_eq (first : FloatFree a) (second : FloatFree b)
    (same : a.compact ++ r = b.compact ++ s) : a.kind = b.kind := by
  obtain ⟨c, starts, kind⟩ := first_compact first r
  obtain ⟨d, starts', kind'⟩ := first_compact second s
  rw [same, starts'] at starts
  obtain rfl := Option.some.inj starts
  exact Option.some.inj (kind.symm.trans kind')

/-- What closes a list starts no value. -/
theorem head?_compact_ne (plain : FloatFree json) (unkind : Kind.ofFirst? close = none)
    (rest : Text) : (json.compact ++ rest).head? ≠ some close := by
  obtain ⟨c, starts, kind⟩ := first_compact plain rest
  intro same
  rw [starts] at same
  obtain rfl := Option.some.inj same
  rw [unkind] at kind
  contradiction

/-- Two texts of one class of characters are equal if what follows them is of other classes. -/
theorem append_inj_of_class {p : Char → Bool} {a b r s : Text} (first : ∀ c ∈ a, p c = true)
    (second : ∀ c ∈ b, p c = true) (ends : ∀ c ∈ r.head?, p c = false)
    (ends' : ∀ c ∈ s.head?, p c = false) (same : a ++ r = b ++ s) : a = b ∧ r = s := by
  have whole : a = b := by
    rw [← (Text.span_append first ends).1, same, (Text.span_append second ends').1]
  subst whole
  exact ⟨rfl, List.append_cancel_left same⟩

theorem ofInt_append_inj {n m : Int} (ends : Ends r) (ends' : Ends s)
    (same : Number.ofInt n ++ r = Number.ofInt m ++ s) : n = m ∧ r = s := by
  let isNumeral (c : Char) : Bool := c.isDigit || c == '-'
  have numeral (k : Int) : ∀ c ∈ Number.ofInt k, isNumeral c = true := by
    intro c member
    cases k with
    | ofNat k => simp [isNumeral, Number.isDigit_of_mem_ofNat member]
    | negSucc k =>
      rcases List.mem_cons.mp member with rfl | member
      · rfl
      · simp [isNumeral, Number.isDigit_of_mem_ofNat member]
  have apart {rest : Text} (ends : Ends rest) : ∀ c ∈ rest.head?, isNumeral c = false := by
    intro c first
    rcases ends c first with rfl | rfl | rfl <;> rfl
  obtain ⟨written, rfl⟩ := append_inj_of_class (numeral n) (numeral m) (apart ends) (apart ends') same
  have read := congrArg Number.readInt? written
  rw [Number.readInt?_ofInt, Number.readInt?_ofInt] at read
  exact ⟨Option.some.inj read, rfl⟩

theorem compactElements_eq (elements : List Json) :
    compactElements elements = elements.map compact := by
  induction elements with
  | nil => rfl
  | cons element elements ih => rw [compactElements, ih, List.map_cons]

theorem compactMembers_eq (members : List (Text × Json)) : compactMembers members =
    members.map fun member => quoted member.1 ++ ':' :: member.2.compact := by
  induction members with
  | nil => rfl
  | cons member members ih => rw [compactMembers, ih, List.map_cons]

/-- Members of objects are told apart by their names, which end where their quotes do, and then by
their values. -/
theorem tellsApart_members {first second : Text × Json}
    (values : TellsApart compact first.2 second.2) :
    TellsApart (fun member => quoted member.1 ++ ':' :: member.2.compact) first second := by
  intro r s ends ends' same
  rw [List.append_assoc, List.append_assoc] at same
  obtain ⟨name, rest⟩ := quoted_append_inj same
  obtain ⟨value, rfl⟩ := values ends ends' (List.cons.inj rest).2
  exact ⟨Prod.ext name value, rfl⟩

/-- By induction on the first value; the second is of the same kind, as its text starts alike. -/
theorem FloatFree.tellsApart (first : FloatFree a) :
    ∀ {b}, FloatFree b → TellsApart compact a b := by
  induction first with
  | null =>
    intro b second r s _ _ same
    have alike := kind_eq .null second same
    cases second with
    | null => exact ⟨rfl, List.append_cancel_left same⟩
    | _ => contradiction
  | bool value =>
    intro b second r s _ _ same
    have alike := kind_eq (.bool value) second same
    cases second with
    | bool other =>
      obtain rfl := Kind.bool.inj alike
      exact ⟨rfl, List.append_cancel_left same⟩
    | _ => contradiction
  | int value =>
    intro b second r s ends ends' same
    have alike := kind_eq (.int value) second same
    cases second with
    | int other =>
      obtain ⟨rfl, rfl⟩ := ofInt_append_inj ends ends' same
      exact ⟨rfl, rfl⟩
    | _ => contradiction
  | string value =>
    intro b second r s _ _ same
    have alike := kind_eq (.string value) second same
    cases second with
    | string other =>
      obtain ⟨rfl, rfl⟩ := quoted_append_inj same
      exact ⟨rfl, rfl⟩
    | _ => contradiction
  | @array elements each ih =>
    intro b second r s _ _ same
    have alike := kind_eq (.array each) second same
    cases second with
    | @array others each' =>
      have closes : Ends [']'] := by simp [Ends]
      simp only [compact, compactElements_eq, List.cons_append, List.append_assoc, List.nil_append,
        List.cons.injEq, true_and] at same
      have starts (x : Json) (member : x ∈ elements ∨ x ∈ others) :=
        head?_compact_ne (member.elim (each x) (each' x)) (show Kind.ofFirst? ']' = none by rfl)
      obtain ⟨rfl, rfl⟩ := intercalate_append_inj closes (by decide) starts
        (fun x inX y inY => ih x inX (each' y inY)) same
      exact ⟨rfl, rfl⟩
    | _ => contradiction
  | @object members each ih =>
    intro b second r s _ _ same
    have alike := kind_eq (.object each) second same
    cases second with
    | @object others each' =>
      have closes : Ends ['}'] := by simp [Ends]
      simp only [compact, compactMembers_eq, List.cons_append, List.append_assoc, List.nil_append,
        List.cons.injEq, true_and] at same
      obtain ⟨rfl, rfl⟩ := intercalate_append_inj closes (by decide)
        (fun x _ rest => by simp [quoted])
        (fun x inX y inY => tellsApart_members (ih x inX (each' y inY))) same
      exact ⟨rfl, rfl⟩
    | _ => contradiction

/-- Values are equal as soon as their texts are. -/
theorem FloatFree.compact_inj (first : FloatFree a) (second : FloatFree b)
    (same : a.compact = b.compact) : a = b := by
  have ends : Ends [] := by simp [Ends]
  exact (first.tellsApart second ends ends (congrArg (· ++ []) same)).1

end RestQuery.Json
