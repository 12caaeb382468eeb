import RestQuery.Literal
import RestQuery.Proofs.Number.Nearest
import RestQuery.Proofs.Text
import RestQuery.Proofs.Token.Balanced

/-! What tokens stand for. The classes of literals are told apart by what a token is made of: every
token is in one of them, and a whole number of 64 bits is in that of the integers only. -/
namespace RestQuery.Literal

open Number

def keywords : List Text := ["true".toList, "false".toList, "null".toList]

/-- What values that are not finite are called, in small letters. -/
def specialNames : List Text := ["inf".toList, "infinity".toList, "nan".toList]

def IsQuote (c : Char) : Prop := c = '\'' ∨ c = '"'

/-- No keyword, no whole number of 64 bits, no numeral of a finite number and no text in quotes. -/
structure StandsAlone (token : Text) : Prop where
  keyword : token ∉ keywords
  integer : ∀ n, SpellsInt token n → ¬ InRange n
  numeral : ∀ numeral : Numeral, numeral.text = token →
    (Binary64.ofDecimal numeral.decimal).isFinite = false
  unquoted : ∀ quote inner, IsQuote quote → token ≠ quote :: (inner ++ [quote])

/-- What a token without blanks around it stands for. -/
inductive StandsFor (token : Text) : Literal → Prop
  | yes : token = "true".toList → StandsFor token (.bool true)
  | no : token = "false".toList → StandsFor token (.bool false)
  | null : token = "null".toList → StandsFor token .null
  | int : SpellsInt token n → InRange n → StandsFor token (.int n)
  | float {numeral : Numeral} : numeral.text = token → (∀ n, SpellsInt token n → ¬ InRange n) →
      (Binary64.ofDecimal numeral.decimal).isFinite = true →
      StandsFor token (.float (Binary64.ofDecimal numeral.decimal))
  | quoted {inner : Text} : IsQuote quote → token = quote :: (inner ++ [quote]) →
      StandsFor token (.string inner)
  | alone : StandsAlone token → StandsFor token (.string token)

/-- Tokens that are almost quoted texts or numbers. -/
inductive IsStray : Text → Prop
  | loneQuote : IsQuote quote → IsStray [quote]
  | mismatched {inner : Text} : IsQuote first → IsQuote last → first ≠ last →
      IsStray (first :: (inner ++ [last]))
  | named {name : Text} (sign : Sign) : name.map Char.toLower ∈ specialNames →
      IsStray (sign.text ++ name)
  | overflowing (numeral : Numeral) : (Binary64.ofDecimal numeral.decimal).isFinite = false →
      IsStray numeral.text

/-! ### The recognizers -/

theorem ofInteger?_eq_some_iff : ofInteger? token = some literal ↔
    ∃ n, SpellsInt token n ∧ InRange n ∧ literal = .int n := by
  simp only [ofInteger?, Option.bind_eq_some_iff, readInt?_eq_some_iff]
  constructor
  · rintro ⟨n, spells, same⟩
    split at same
    · next range => exact ⟨n, spells, range, (Option.some.inj same).symm⟩
    · contradiction
  · rintro ⟨n, spells, range, rfl⟩
    exact ⟨n, spells, if_pos range⟩

theorem ofInteger?_eq_none_iff :
    ofInteger? token = none ↔ ∀ n, SpellsInt token n → ¬ InRange n := by
  rw [Option.eq_none_iff_forall_ne_some]
  constructor
  · intro unread n spells range
    exact unread (.int n) (ofInteger?_eq_some_iff.mpr ⟨n, spells, range, rfl⟩)
  · intro outside literal read
    obtain ⟨n, spells, range, rfl⟩ := ofInteger?_eq_some_iff.mp read
    exact outside n spells range

theorem ofFloat?_eq_some_iff : ofFloat? token = some literal ↔
    ∃ numeral : Numeral, numeral.text = token ∧
      (Binary64.ofDecimal numeral.decimal).isFinite = true ∧
      literal = .float (Binary64.ofDecimal numeral.decimal) := by
  simp only [ofFloat?, Option.bind_eq_some_iff]
  constructor
  · rintro ⟨value, read, same⟩
    split at same
    · next finite =>
      by_cases other : ∀ numeral : Numeral, numeral.text ≠ token
      · rw [Binary64.isFinite_of_read? other read] at finite
        contradiction
      · obtain ⟨numeral, rfl⟩ := not_forall_not.mp other
        rw [Binary64.read?_text] at read
        obtain rfl := Option.some.inj read
        exact ⟨numeral, rfl, finite, (Option.some.inj same).symm⟩
    · contradiction
  · rintro ⟨numeral, rfl, finite, rfl⟩
    exact ⟨_, Binary64.read?_text numeral, if_pos finite⟩

theorem ofFloat?_eq_none_iff : ofFloat? token = none ↔ ∀ numeral : Numeral, numeral.text = token →
    (Binary64.ofDecimal numeral.decimal).isFinite = false := by
  rw [Option.eq_none_iff_forall_ne_some]
  constructor
  · intro unread numeral same
    refine Bool.eq_false_of_not_eq_true fun finite => ?_
    exact unread _ (ofFloat?_eq_some_iff.mpr ⟨numeral, same, finite, rfl⟩)
  · intro infinite literal read
    obtain ⟨numeral, same, finite, rfl⟩ := ofFloat?_eq_some_iff.mp read
    rw [infinite numeral same] at finite
    contradiction

theorem keyword?_eq_none_iff : keyword? token = none ↔ token ∉ keywords := by
  unfold keyword?
  split_ifs with yes no null <;> simp_all [keywords]

/-! ### Disjoint classes -/

theorem keyword?_of_numeral (numeral : Numeral) : keyword? numeral.text = none := by
  rw [keyword?_eq_none_iff]
  intro member
  simp only [keywords, List.mem_cons, List.not_mem_nil, or_false] at member
  rcases member with same | same | same <;>
    rcases Numeral.starts same with h | h | h | h <;> contradiction

theorem text_ne_of_isQuote (quoting : IsQuote quote) (numeral : Numeral) :
    numeral.text ≠ quote :: rest := by
  intro same
  rcases quoting with rfl | rfl <;> rcases Numeral.starts same with h | h | h | h <;> contradiction

section
variable (quoting : IsQuote quote) (rest : Text)
include quoting

theorem ofInteger?_of_isQuote : ofInteger? (quote :: rest) = none := by
  rw [ofInteger?_eq_none_iff]
  intro n spells
  obtain ⟨numeral, same, _⟩ := Numeral.exists_of_spellsInt spells
  exact absurd same (text_ne_of_isQuote quoting numeral)

theorem ofFloat?_of_isQuote : ofFloat? (quote :: rest) = none := by
  rw [ofFloat?_eq_none_iff]
  intro numeral same
  exact absurd same (text_ne_of_isQuote quoting numeral)

theorem keyword?_of_isQuote : keyword? (quote :: rest) = none := by
  rcases quoting with rfl | rfl <;> simp [keyword?]

end

theorem unquoted?_of_ne (apart : c ≠ quote) : unquoted? quote (c :: rest) = none := by
  simp [unquoted?, apart]

/-- The classes do not overlap, so that whatever a token stands for is found, by the first
recognizer that knows it. -/
theorem StandsFor.ofTrimmed_eq (stands : StandsFor token literal) : ofTrimmed token = literal := by
  cases stands with
  | yes same =>
    subst same
    rfl
  | no same =>
    subst same
    rfl
  | null same =>
    subst same
    rfl
  | int spells range =>
    obtain ⟨numeral, rfl, _⟩ := Numeral.exists_of_spellsInt spells
    have integer := ofInteger?_eq_some_iff.mpr ⟨_, spells, range, rfl⟩
    simp [ofTrimmed, keyword?_of_numeral, integer]
  | @float numeral same outside finite =>
    subst same
    have integer := ofInteger?_eq_none_iff.mpr outside
    have float := ofFloat?_eq_some_iff.mpr ⟨numeral, rfl, finite, rfl⟩
    simp [ofTrimmed, keyword?_of_numeral, integer, float]
  | @quoted quote inner quoting same =>
    have keyword := keyword?_of_isQuote quoting (inner ++ [quote])
    have integer := ofInteger?_of_isQuote quoting (inner ++ [quote])
    have float := ofFloat?_of_isQuote quoting (inner ++ [quote])
    have inside := unquoted?_eq_some_iff.mpr same
    rw [← same] at keyword integer float
    rcases quoting with rfl | rfl
    · simp [ofTrimmed, keyword, integer, float, inside]
    · have other : unquoted? '\'' token = none := same ▸ unquoted?_of_ne (by decide)
      simp [ofTrimmed, keyword, integer, float, inside, other]
  | alone alone =>
    have keyword := keyword?_eq_none_iff.mpr alone.keyword
    have integer := ofInteger?_eq_none_iff.mpr alone.integer
    have float := ofFloat?_eq_none_iff.mpr alone.numeral
    have unquoted {quote : Char} (quoting : IsQuote quote) : unquoted? quote token = none := by
      refine Option.eq_none_iff_forall_ne_some.mpr fun inner found => ?_
      exact alone.unquoted quote inner quoting (unquoted?_eq_some_iff.mp found)
    simp [ofTrimmed, keyword, integer, float, unquoted (.inl rfl), unquoted (.inr rfl)]

/-- Every token stands for something, by the first class that has it. -/
theorem exists_standsFor (token : Text) : ∃ literal, StandsFor token literal := by
  by_cases keyword : token ∈ keywords
  · simp only [keywords, List.mem_cons, List.not_mem_nil, or_false] at keyword
    rcases keyword with same | same | same
    · exact ⟨_, .yes same⟩
    · exact ⟨_, .no same⟩
    · exact ⟨_, .null same⟩
  by_cases integer : ∃ n, SpellsInt token n ∧ InRange n
  · obtain ⟨n, spells, range⟩ := integer
    exact ⟨_, .int spells range⟩
  have integer : ∀ n, SpellsInt token n → ¬ InRange n := fun n spells range =>
    integer ⟨n, spells, range⟩
  by_cases float : ∃ numeral : Numeral, numeral.text = token ∧
      (Binary64.ofDecimal numeral.decimal).isFinite = true
  · obtain ⟨numeral, same, finite⟩ := float
    exact ⟨_, .float same integer finite⟩
  by_cases quoted : ∃ quote inner, IsQuote quote ∧ token = quote :: (inner ++ [quote])
  · obtain ⟨quote, inner, quoting, same⟩ := quoted
    exact ⟨_, .quoted quoting same⟩
  refine ⟨_, .alone ⟨keyword, integer, fun numeral same => ?_, fun quote inner quoting same => ?_⟩⟩
  · exact Bool.eq_false_of_not_eq_true fun finite => float ⟨numeral, same, finite⟩
  · exact quoted ⟨quote, inner, quoting, same⟩

theorem ofTrimmed_eq_iff : ofTrimmed token = literal ↔ StandsFor token literal := by
  constructor
  · rintro rfl
    obtain ⟨literal, stands⟩ := exists_standsFor token
    rwa [stands.ofTrimmed_eq]
  · exact StandsFor.ofTrimmed_eq

/-! ### Strays -/

/-- What is read as no numeral and is no keyword is a text in quotes or stands alone. -/
theorem StandsAlone.of_starts (starts : ∀ numeral : Numeral, numeral.text ≠ token)
    (keyword : token ∉ keywords)
    (unquoted : ∀ quote inner, IsQuote quote → token ≠ quote :: (inner ++ [quote])) :
    StandsAlone token := by
  refine ⟨keyword, fun n spells => ?_, fun numeral same => absurd same (starts numeral), unquoted⟩
  obtain ⟨numeral, same, _⟩ := Numeral.exists_of_spellsInt spells
  exact absurd same (starts numeral)

section
variable {name : Text} (named : name.map Char.toLower ∈ specialNames)
include named

/-- A name starts with a letter, of either case. -/
theorem toLower_of_named (first : c ∈ name.head?) : c.toLower = 'i' ∨ c.toLower = 'n' := by
  cases name with
  | nil => contradiction
  | cons d rest =>
    obtain rfl := Option.some.inj first
    simp [specialNames] at named
    tauto

theorem readSign_of_named (sign : Sign) : readSign (sign.text ++ name) = (sign.isMinus, name) := by
  apply readSign_text
  intro c first
  rcases toLower_of_named named first with letter | letter <;>
    constructor <;> (rintro rfl; contradiction)

theorem text_ne_of_named (sign : Sign) (numeral : Numeral) : numeral.text ≠ sign.text ++ name := by
  intro same
  obtain ⟨c, first, other⟩ := numeral.head?_unsigned
  have split := numeral.readSign_text
  rw [same, readSign_of_named named, Prod.mk.injEq] at split
  rw [← split.2] at first
  have unnamed : Binary64.named? false name = none := Binary64.named?_eq_none first other
  simp only [specialNames, List.mem_cons, List.not_mem_nil, or_false] at named
  rcases named with named | named | named <;> simp [Binary64.named?, named] at unnamed

/-- A name of infinity or of no number is neither a keyword nor quoted, whatever its sign. -/
theorem standsAlone_of_named (sign : Sign) : StandsAlone (sign.text ++ name) := by
  have unsigned (alone : readSign (sign.text ++ name) = (false, sign.text ++ name)) :
      sign.text ++ name = name := by
    rw [readSign_of_named named] at alone
    exact (Prod.mk.inj alone).2.symm
  refine .of_starts (text_ne_of_named named sign) ?_ fun quote inner quoting same => ?_
  · intro member
    have alone : ∀ keyword ∈ keywords, readSign keyword = (false, keyword) := by decide
    have unnamed : ∀ keyword ∈ keywords, keyword.map Char.toLower ∉ specialNames := by decide
    rw [unsigned (alone _ member)] at member
    exact unnamed name member named
  · have alone : readSign (quote :: (inner ++ [quote])) = (false, quote :: (inner ++ [quote])) := by
      rcases quoting with rfl | rfl <;> rfl
    rw [← same] at alone
    obtain rfl := (unsigned alone).symm.trans same
    rcases toLower_of_named named rfl with letter | letter <;>
      rcases quoting with rfl | rfl <;> contradiction

end

theorem IsStray.standsAlone (stray : IsStray token) : StandsAlone token := by
  cases stray with
  | @loneQuote quote quoting =>
    refine .of_starts (text_ne_of_isQuote quoting) ?_ fun other inner _ same => ?_
    · exact keyword?_eq_none_iff.mp (keyword?_of_isQuote quoting [])
    · simpa using congrArg List.length same
  | @mismatched first last inner opening closing apart =>
    refine .of_starts (text_ne_of_isQuote opening) ?_ fun other inner _ same => ?_
    · exact keyword?_eq_none_iff.mp (keyword?_of_isQuote opening _)
    · obtain ⟨rfl, same⟩ := List.cons.inj same
      exact apart (List.singleton_inj.mp (List.append_inj' same rfl).2).symm
  | @named name sign named => exact standsAlone_of_named named sign
  | overflowing numeral infinite =>
    refine ⟨?_, fun n spells range => ?_, fun other same => ?_, fun quote inner quoting => ?_⟩
    · exact keyword?_eq_none_iff.mp (keyword?_of_numeral numeral)
    · obtain ⟨other, same, value⟩ := Numeral.exists_of_spellsInt spells
      have finite := Binary64.isFinite_ofDecimal value range
      rw [Binary64.ofDecimal_congr same, infinite] at finite
      contradiction
    · rwa [Binary64.ofDecimal_congr same]
    · exact text_ne_of_isQuote quoting numeral

/-- A token stands for the literal of its class, once blanks around it are left out. Strays are in
the last class, so that they stand for themselves. -/
theorem ofToken_eq_iff_standsFor (token : Text) :
    (∀ literal, ofToken token = literal ↔ StandsFor token.trim literal) ∧
    (IsStray token.trim → ofToken token = .string token.trim) := by
  refine ⟨fun _ => ofTrimmed_eq_iff, fun stray => ?_⟩
  exact (StandsFor.alone stray.standsAlone).ofTrimmed_eq

theorem ofToken_eq_iff_overflowing :
    let token : Text := " -1.5E+999 ".toList
    IsStray token.trim ∧ ofToken token = .string "-1.5E+999".toList ∧
      StandsFor token.trim (.string "-1.5E+999".toList) := by
  intro token
  let power : Power := ⟨'E', .plus, "999".toList, .inr rfl, by decide, by decide⟩
  let numeral : Numeral := ⟨.minus, "1".toList, some "5".toList, some power, by decide, by decide⟩
  have trimmed : token.trim = "-1.5E+999".toList := by decide
  have written : numeral.text = token.trim := by decide
  have stray : IsStray token.trim := written ▸ .overflowing numeral (by decide +kernel)
  obtain ⟨classes, strays⟩ := ofToken_eq_iff_standsFor token
  have read := strays stray
  rw [trimmed] at read
  exact ⟨stray, read, (classes _).mp read⟩

end RestQuery.Literal

/-! Literals that a filter can hold as they are written: keywords, numbers of 64 bits, and
text that neither ends its own quotes nor an argument. Each reads back as itself. -/
namespace RestQuery.Literal

def IsBare : Literal → Prop
  | .bool _ => True
  | .int n => Number.InRange n
  | .string content => '\'' ∉ content ∧ Token.IsBare content
  | _ => False

theorem quoted_of_not_mem (unquoted : '\'' ∉ content) :
    quoted content = '\'' :: (content ++ ['\'']) := by
  have same : (content.flatMap fun c => if c = '\'' then ['\'', '\''] else [c]) = content := by
    induction content with
    | nil => rfl
    | cons c cs ih =>
      obtain ⟨apart, unquoted⟩ := List.ne_and_not_mem_of_not_mem_cons unquoted
      simp [Ne.symm apart, ih unquoted]
  simp [quoted, same]

theorem isBare_ofInt (n : Int) : Token.IsBare (Number.ofInt n) := by
  have digits (m : Nat) : Token.IsBare (Number.ofNat m) := by
    intro c member
    have digit := Number.isDigit_of_mem_ofNat member
    refine ⟨?_, ?_, ?_⟩ <;> rintro rfl <;> contradiction
  cases n with
  | ofNat n => exact digits n
  | negSucc n => exact List.forall_mem_cons.mpr ⟨by decide, digits (n + 1)⟩

theorem isBare_toSql {literal : Literal} (bare : literal.IsBare) : Token.IsBare literal.toSql := by
  cases literal with
  | null => exact bare.elim
  | bool value => cases value <;> decide
  | int n => exact isBare_ofInt n
  | float value => exact bare.elim
  | string content =>
    have quote : Token.IsBare ['\''] := by decide
    rw [toSql_string, quoted_of_not_mem bare.1]
    exact List.forall_mem_cons.mpr ⟨by decide, List.forall_mem_append.mpr ⟨bare.2, quote⟩⟩

theorem trim_ofInt (n : Int) : Text.trim (Number.ofInt n) = Number.ofInt n := by
  have digits (m : Nat) : ∀ c ∈ Number.ofNat m, Text.isWhiteSpace c = false := fun _ member =>
    Text.isWhiteSpace_eq_false_of_isWord (Text.isWord_of_isDigit (Number.isDigit_of_mem_ofNat member))
  cases n with
  | ofNat n => exact Text.trim_of_bound (digits n)
  | negSucc n => exact Text.trim_of_bound (List.forall_mem_cons.mpr ⟨by decide, digits (n + 1)⟩)

theorem ofToken_toSql {literal : Literal} (bare : literal.IsBare) :
    ofToken literal.toSql = literal := by
  cases literal with
  | null => exact bare.elim
  | bool value => cases value <;> decide +kernel
  | int n =>
    have spells := Number.readInt?_eq_some_iff.mp (Number.readInt?_ofInt n)
    rw [toSql_int, ofToken, trim_ofInt]
    exact (StandsFor.int spells bare).ofTrimmed_eq
  | float value => exact bare.elim
  | string content =>
    have trimmed : Text.trim ('\'' :: (content ++ ['\''])) = '\'' :: (content ++ ['\'']) := by
      have quote : Text.isWhiteSpace '\'' = false := by decide
      apply Text.trim_eq_self
      · simp [quote]
      · rw [← List.cons_append, List.getLast?_concat]
        simp [quote]
    rw [toSql_string, quoted_of_not_mem bare.1, ofToken, trimmed]
    exact (StandsFor.quoted (.inl rfl) rfl).ofTrimmed_eq

end RestQuery.Literal
